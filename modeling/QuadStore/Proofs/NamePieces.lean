import QuadStore.Proofs.EscapeRoundTrip
import Mathlib.Data.List.Infix
import Mathlib.Tactic.Cases

/-!
# What a row of pieces tells about them

A name that is made of pieces, one blank apart, does not tell its pieces if a piece may hold
blanks itself.  A *word* may not; a *bracketed* piece may hold anything.  So a bracketed piece can
hide an end of one piece and the beginning of the next, and this module says exactly how: it must
hold a closing bracket, a blank, the words that come next, and the opening bracket that ends them
(`Piece.lead`).

The main statement compares two rows with the same text (`Piece.eq_of_terminated_eq`).  If no
bracketed piece of the first hides a boundary of the second, then every boundary of the second is
one of the first, so the second row has at most as many pieces, and if it has as many, the rows
are the same.  The condition is on one row only: the other may hold any texts.

Pieces are written with the blank *after* each, so that rows are concatenated as lists.
-/

namespace QuadStore

/-! ## Delimiters -/

/-- The characters that delimit the written form of a term, and those that are escaped in it. -/
def isDelimiter (c : Char) : Bool :=
  c = ' ' || c = '<' || c = '>' || c = '"' || c = '\\' || Text.isControl c

/-- A text without delimiters. -/
def Bare (text : List Char) : Prop := ∀ c ∈ text, isDelimiter c = false

instance (text : List Char) : Decidable (Bare text) :=
  List.decidableBAll (fun c => isDelimiter c = false) text

lemma Bare.notMem {text : List Char} (h : Bare text) {c : Char} (hc : isDelimiter c = true) :
    c ∉ text := fun hmem => by
  rw [h c hmem] at hc
  cases hc

lemma Bare.append {a b : List Char} (ha : Bare a) (hb : Bare b) : Bare (a ++ b) := by
  intro c hc
  rcases List.mem_append.mp hc with h | h
  · exact ha c h
  · exact hb c h

/-- A bare text ends at the first delimiter after it. -/
lemma Bare.append_cons_inj {u v r s : List Char} {c d : Char} (hu : Bare u) (hv : Bare v)
    (hc : isDelimiter c = true) (hd : isDelimiter d = true) (h : u ++ c :: r = v ++ d :: s) :
    u = v ∧ c = d ∧ r = s := by
  induction u generalizing v with
  | nil =>
    cases v with
    | nil => exact ⟨rfl, List.cons.inj h⟩
    | cons x v =>
      have hx : c = x := (List.cons.inj h).1
      exact absurd (hx ▸ List.mem_cons_self) (hv.notMem hc)
  | cons x u ih =>
    cases v with
    | nil =>
      have hx : x = d := (List.cons.inj h).1
      exact absurd (hx ▸ List.mem_cons_self) (hu.notMem hd)
    | cons y v =>
      obtain ⟨hx, hrest⟩ := List.cons.inj h
      obtain ⟨huv, hcd⟩ := ih (fun e he => hu e (List.mem_cons_of_mem x he))
        (fun e he => hv e (List.mem_cons_of_mem y he)) hrest
      exact ⟨by rw [hx, huv], hcd⟩

/-! ## Pieces -/

/-- A piece of a name. -/
inductive Piece where
  /-- A text without delimiters. -/
  | word (text : List Char)
  /-- Any text in angle brackets, after a mark without delimiters. -/
  | bracketed (mark inner : List Char)

namespace Piece

/-- The characters of a piece. -/
def text : Piece → List Char
  | word w => w
  | bracketed mark inner => mark ++ '<' :: (inner ++ ['>'])

/-- A word, and the mark of a bracketed piece, hold no delimiter. -/
def Valid : Piece → Prop
  | word w => Bare w
  | bracketed mark _ => Bare mark

/-- A row of pieces, with a blank after each. -/
def terminated (row : List Piece) : List Char := row.flatMap fun piece => piece.text ++ [' ']

@[simp] lemma terminated_nil : terminated [] = [] := rfl

@[simp] lemma terminated_cons (piece : Piece) (row : List Piece) :
    terminated (piece :: row) = piece.text ++ ' ' :: terminated row := by
  simp [terminated]

lemma eq_nil_of_terminated_eq_nil {row : List Piece} (h : terminated row = []) : row = [] := by
  cases row with
  | nil => rfl
  | cons piece row => simp at h

/-- The beginning of a row up to its first opening bracket: the words before it, and the mark.  A
row of words has none. -/
def lead : List Piece → Option (List Char)
  | [] => none
  | word w :: row => (lead row).map fun gap => w ++ ' ' :: gap
  | bracketed mark _ :: _ => some (mark ++ ['<'])

/-! ## Hidden boundaries -/

/-- Before the first closing bracket of a row there is the opening one, with the words before it. -/
lemma exists_lead_prefix {row : List Piece} (hvalid : ∀ p ∈ row, p.Valid) {before after : List Char}
    (h : terminated row = before ++ '>' :: after) :
    ∃ gap, lead row = some gap ∧ gap <+: before := by
  induction row generalizing before with
  | nil => simp at h
  | cons piece row ih =>
    have hpiece : piece.Valid := hvalid piece List.mem_cons_self
    rw [terminated_cons] at h
    cases piece with
    | word w =>
      simp only [text] at h
      rcases List.append_eq_append_iff.mp h with ⟨more, rfl, hmore⟩ | ⟨more, rfl, hmore⟩
      · cases more with
        | nil => simp at hmore
        | cons c more =>
          obtain ⟨rfl, hrow⟩ := List.cons.inj hmore
          obtain ⟨gap, hgap, hprefix⟩ :=
            ih (fun p hp => hvalid p (List.mem_cons_of_mem _ hp)) hrow
          refine ⟨w ++ ' ' :: gap, by rw [lead, hgap]; rfl, ?_⟩
          obtain ⟨rest, rfl⟩ := hprefix
          exact ⟨rest, by simp⟩
      · -- The closing bracket would stand in the word or be the blank after it.
        cases more with
        | nil => simp at hmore
        | cons c more =>
          obtain ⟨rfl, -⟩ := List.cons.inj hmore
          exact absurd (by simp) (hpiece.notMem (c := '>') rfl)
    | bracketed mark inner =>
      refine ⟨mark ++ ['<'], rfl, ?_⟩
      simp only [text, List.append_assoc, List.cons_append] at h
      rcases List.append_eq_append_iff.mp h with ⟨more, rfl, hmore⟩ | ⟨more, rfl, hmore⟩
      · cases more with
        | nil => simp at hmore
        | cons c more =>
          obtain ⟨rfl, -⟩ := List.cons.inj hmore
          exact ⟨more, by simp⟩
      · cases more with
        | nil => simp at hmore
        | cons c more =>
          obtain ⟨rfl, -⟩ := List.cons.inj hmore
          exact absurd (by simp) (hpiece.notMem (c := '>') rfl)

/-- What a bracketed piece holds after a closing bracket and a blank, but for its own closing
bracket, stands inside it. -/
lemma hidden_of_text_eq {mark inner before after : List Char} (hmark : Bare mark)
    (h : (bracketed mark inner).text = before ++ '>' :: ' ' :: after) :
    ∃ hidden, after = hidden ++ ['>'] ∧ ('>' :: ' ' :: hidden) <:+: inner := by
  have hopen : '>' ∉ mark ++ ['<'] := by simp [hmark.notMem (c := '>') rfl]
  have htext : (mark ++ ['<'] ++ inner) ++ ['>'] = before ++ '>' :: ' ' :: after := by
    simpa [text] using h
  rcases List.eq_nil_or_concat after with rfl | ⟨hidden, last, rfl⟩
  · have hsplit : (mark ++ ['<'] ++ inner) ++ ['>'] = (before ++ ['>']) ++ [' '] := by
      simpa using htext
    simpa using (List.append_inj' hsplit rfl).2
  · have hsplit : (mark ++ ['<'] ++ inner) ++ ['>'] = (before ++ '>' :: ' ' :: hidden) ++ [last] := by
      simpa using htext
    obtain ⟨hinner, hlast⟩ := List.append_inj' hsplit rfl
    refine ⟨hidden, by rw [← List.singleton_inj.mp hlast, List.concat_eq_append], ?_⟩
    rcases List.append_eq_append_iff.mp hinner with ⟨more, -, rfl⟩ | ⟨more, hmore, hrest⟩
    · exact List.infix_append' more _ [] |>.trans (by simp)
    · cases more with
      | nil => exact ⟨[], [], by simpa using hrest⟩
      | cons c more =>
        have hc : '>' = c := (List.cons.inj hrest).1
        exact absurd (hmore ▸ hc ▸ by simp) hopen

/-- **Where a row may be cut.**  If a row's text is cut after a closing bracket and a blank, and
what follows is a row, then the cut lies between two pieces, or a bracketed piece hides it. -/
lemma cut {row next : List Piece} (hvalid : ∀ p ∈ row, p.Valid) (hnext : ∀ p ∈ next, p.Valid)
    {before : List Char} (h : terminated row = before ++ '>' :: ' ' :: terminated next) :
    (∃ first rest, row = first ++ rest ∧ terminated first = before ++ ['>', ' '] ∧
      terminated rest = terminated next) ∨
    ∃ mark inner gap, bracketed mark inner ∈ row ∧ lead next = some gap ∧
      ('>' :: ' ' :: gap) <:+: inner := by
  induction row generalizing before with
  | nil => simp at h
  | cons piece row ih =>
    have hpiece : piece.Valid := hvalid piece List.mem_cons_self
    rw [terminated_cons] at h
    rcases List.append_eq_append_iff.mp h with ⟨more, rfl, hmore⟩ | ⟨more, htext, hmore⟩
    · -- The piece ends before the cut.
      cases more with
      | nil => simp at hmore
      | cons c more =>
        obtain ⟨rfl, hrow⟩ := List.cons.inj hmore
        rcases ih (fun p hp => hvalid p (List.mem_cons_of_mem _ hp)) hrow with
          ⟨first, rest, rfl, hfirst, hrest⟩ | ⟨mark, inner, gap, hmem, hgap, hpart⟩
        · exact .inl ⟨piece :: first, rest, rfl, by simp [hfirst], hrest⟩
        · exact .inr ⟨mark, inner, gap, List.mem_cons_of_mem _ hmem, hgap, hpart⟩
    · cases more with
      | nil => simp at hmore
      | cons c more =>
        obtain ⟨rfl, hafter⟩ := List.cons.inj hmore
        cases more with
        | nil =>
          -- The piece ends at the cut.
          have hrow : terminated next = terminated row := by simpa using hafter
          exact .inl ⟨[piece], row, rfl, by simp [htext], hrow.symm⟩
        | cons c more =>
          -- The piece goes on after the cut, so it is bracketed and hides it.
          obtain ⟨rfl, hrow⟩ := List.cons.inj hafter
          cases piece with
          | word w =>
            simp only [text] at htext
            exact absurd (htext ▸ by simp) (hpiece.notMem (c := '>') rfl)
          | bracketed mark inner =>
            obtain ⟨hidden, rfl, hpart⟩ := hidden_of_text_eq hpiece htext
            have hrest : terminated next = hidden ++ '>' :: (' ' :: terminated row) := by
              simpa using hrow
            obtain ⟨gap, hgap, more, rfl⟩ := exists_lead_prefix hnext hrest
            refine .inr ⟨mark, inner, gap, List.mem_cons_self, hgap, ?_⟩
            exact .trans ⟨[], more, by simp⟩ hpart

/-- Two pieces with the same text and a blank after it are the same. -/
lemma eq_of_text_eq {p q : Piece} (hp : p.Valid) (hq : q.Valid)
    (h : p.text ++ [' '] = q.text ++ [' ']) : p = q := by
  cases p <;> cases q <;> simp only [text, List.append_assoc, List.cons_append] at h
  case word.word => rw [(hp.append_cons_inj hq rfl rfl h).1]
  case bracketed.bracketed =>
    obtain ⟨hmark, -, hinner⟩ := hp.append_cons_inj hq rfl rfl h
    rw [hmark, (List.append_inj' hinner rfl).1]
  all_goals simpa using (hp.append_cons_inj hq rfl rfl h).2.1

/-! ## Rows with one text -/

/-- No bracketed piece of a row hides the boundary after a bracketed piece of another. -/
def Discloses (row other : List Piece) : Prop :=
  ∀ mark inner, bracketed mark inner ∈ row → ∀ before mark' inner' next gap,
    other = before ++ bracketed mark' inner' :: next → lead next = some gap →
      ¬ ('>' :: ' ' :: gap) <:+: inner

lemma Discloses.tail {row other first rest : List Piece} {piece : Piece}
    (h : Discloses row (piece :: other)) (hrow : row = first ++ rest) : Discloses rest other := by
  intro mark inner hmem before mark' inner' next gap hother
  exact h mark inner (hrow ▸ List.mem_append_right first hmem) (piece :: before) mark' inner' next
    gap (by rw [hother]; rfl)

/-- A row that has the text of another and hides no boundary of it splits where the first piece of
the other ends. -/
lemma exists_split_first {row other : List Piece} {piece : Piece} (hvalid : ∀ p ∈ row, p.Valid)
    (hother : ∀ p ∈ piece :: other, p.Valid) (hdiscloses : Discloses row (piece :: other))
    (h : terminated row = terminated (piece :: other)) :
    ∃ first rest, row = first ++ rest ∧ terminated first = piece.text ++ [' '] ∧
      terminated rest = terminated other := by
  have hpiece : piece.Valid := hother piece List.mem_cons_self
  cases piece with
  | word w =>
    cases row with
    | nil => simp at h
    | cons start row =>
      have hstart : start.Valid := hvalid start List.mem_cons_self
      cases start with
      | word v =>
        simp only [terminated_cons, text] at h
        obtain ⟨rfl, -, hrow⟩ := hstart.append_cons_inj hpiece rfl rfl h
        exact ⟨[word v], row, rfl, by simp, hrow⟩
      | bracketed mark inner =>
        simp only [terminated_cons, text, List.append_assoc, List.cons_append] at h
        have hblank := (hstart.append_cons_inj hpiece rfl rfl h).2.1
        simp at hblank
  | bracketed mark inner =>
    have hcut : terminated row = (mark ++ '<' :: inner) ++ '>' :: ' ' :: terminated other := by
      rw [h]
      simp [text]
    have hnext : ∀ p ∈ other, p.Valid := fun p hp => hother p (List.mem_cons_of_mem _ hp)
    rcases cut hvalid hnext hcut with hsplit | ⟨mark', inner', gap, hmem, hgap, hpart⟩
    · obtain ⟨first, rest, hrow, hfirst, htail⟩ := hsplit
      exact ⟨first, rest, hrow, by simp [hfirst, text], htail⟩
    · exact absurd hpart (hdiscloses mark' inner' hmem [] mark inner other gap rfl hgap)

/-- **Rows with one text.**  If a row hides no boundary of another with the same text, the other
has at most as many pieces, and if it has as many the rows are the same. -/
theorem eq_of_terminated_eq {row other : List Piece} (hvalid : ∀ p ∈ row, p.Valid)
    (hother : ∀ p ∈ other, p.Valid) (hdiscloses : Discloses row other)
    (h : terminated row = terminated other) :
    other.length ≤ row.length ∧ (other.length = row.length → row = other) := by
  induction other generalizing row with
  | nil =>
    have hnil : row = [] := eq_nil_of_terminated_eq_nil h
    exact ⟨Nat.zero_le _, fun _ => hnil⟩
  | cons piece other ih =>
    have hpiece : piece.Valid := hother piece List.mem_cons_self
    have hrest : ∀ p ∈ other, p.Valid := fun p hp => hother p (List.mem_cons_of_mem _ hp)
    obtain ⟨first, rest, rfl, hfirst, htail⟩ := exists_split_first hvalid hother hdiscloses h
    obtain ⟨hle, heq⟩ := ih (fun p hp => hvalid p (List.mem_append_right _ hp)) hrest
      (hdiscloses.tail rfl) htail
    have hpos : first ≠ [] := by
      rintro rfl
      simp at hfirst
    have hlength : 0 < first.length := List.length_pos_iff.mpr hpos
    simp only [List.length_append, List.length_cons]
    refine ⟨by omega, fun hsame => ?_⟩
    obtain ⟨start, rfl⟩ := List.length_eq_one_iff.mp (show first.length = 1 by omega)
    have hstart : start = piece := by
      refine eq_of_text_eq (hvalid start (by simp)) hpiece ?_
      simpa using hfirst
    have hlen : other.length = rest.length := by simpa [Nat.add_comm] using hsame
    rw [hstart, heq hlen]
    rfl

end Piece

end QuadStore
