import QuadStore.Term.Written
import Mathlib.Logic.Function.Defs
import Mathlib.Tactic.Lemma
import Mathlib.Tactic.SplitIfs

/-!
# Escaped text is read back, and its quotes are found

Every written form rests on two facts about `Text.escape`.  Reading undoes it (`unescape_escape`),
so a written text determines the text; and an escaped text never closes a quotation by itself
(`splitAtQuote_escape`), so the first quote that the scanner takes for the closing one is the
closing one.

Both are proved one character at a time, with the rest of the text left open: a character's
escape is read as that character whatever follows it.  The only escape that needs arithmetic is
the one of four hexadecimal digits, which is used for control characters, all below `16 ^ 4`.
-/

namespace QuadStore.Text

/-! ## Hexadecimal digits -/

lemma hexValue?_hexDigit : ∀ n < 16, hexValue? (hexDigit n) = some n := by decide

/-- Four digits are read back to the number they were written for. -/
lemma hexNumber?_hexQuad {n : Nat} (h : n < 65536) : hexNumber? 0 (hexQuad n) = some n := by
  have digit : ∀ m, hexValue? (hexDigit (m % 16)) = some (m % 16) := fun m =>
    hexValue?_hexDigit (m % 16) (Nat.mod_lt m (by decide))
  simp only [hexQuad, hexNumber?, digit, Option.bind_some, Option.some.injEq]
  omega

lemma scalar?_toNat (c : Char) : scalar? c.toNat = some c := by
  have h : c.toNat.isValidChar := c.valid
  rw [scalar?, dif_pos h]
  rfl

lemma codePoint?_hexQuad {c : Char} (h : c.toNat < 65536) :
    codePoint? 4 (hexQuad c.toNat) = some c := by
  rw [codePoint?, if_pos (by rfl), hexNumber?_hexQuad h]
  exact scalar?_toNat c

/-! ## Reading what was escaped -/

lemma unescape_cons {c : Char} (h : c ≠ '\\') (rest : List Char) :
    unescape (c :: rest) = (unescape rest).map (c :: ·) := by
  rw [unescape.eq_def]
  simp only [ne_eq, h, not_false_eq_true, if_true]

lemma unescape_short {letter plain : Char} (h : shortEscape? letter = some plain)
    (rest : List Char) :
    unescape ('\\' :: letter :: rest) = (unescape rest).map (plain :: ·) := by
  rw [unescape.eq_def]
  simp [h]

lemma unescape_hexQuad {c : Char} (h : c.toNat < 65536) (rest : List Char) :
    unescape ('\\' :: 'u' :: (hexQuad c.toNat ++ rest)) = (unescape rest).map (c :: ·) := by
  have htake : (hexQuad c.toNat ++ rest).take 4 = hexQuad c.toNat := rfl
  have hdrop : (hexQuad c.toNat ++ rest).drop 4 = rest := rfl
  have hshort : shortEscape? 'u' = none := rfl
  have hwidth : codePointWidth? 'u' = some 4 := rfl
  rw [unescape.eq_def]
  simp [hshort, hwidth, htake, hdrop, codePoint?_hexQuad h]

lemma toNat_lt_of_isControl {c : Char} (h : isControl c = true) : c.toNat < 65536 := by
  simp only [isControl, Bool.or_eq_true, Bool.and_eq_true, decide_eq_true_eq] at h
  omega

/-- A character's written form is read as that character, whatever follows. -/
lemma unescape_escapeChar (c : Char) (rest : List Char) :
    unescape (escapeChar c ++ rest) = (unescape rest).map (c :: ·) := by
  unfold escapeChar
  split_ifs with hbackslash hquote hnewline hreturn htab hcontrol
  · subst hbackslash; exact unescape_short rfl rest
  · subst hquote; exact unescape_short rfl rest
  · subst hnewline; exact unescape_short rfl rest
  · subst hreturn; exact unescape_short rfl rest
  · subst htab; exact unescape_short rfl rest
  · exact unescape_hexQuad (toNat_lt_of_isControl hcontrol) rest
  · exact unescape_cons hbackslash rest

@[simp] lemma escape_nil : escape [] = [] := rfl

lemma escape_cons (c : Char) (text : List Char) : escape (c :: text) = escapeChar c ++ escape text :=
  List.flatMap_cons

@[simp] lemma escape_append (a b : List Char) : escape (a ++ b) = escape a ++ escape b :=
  List.flatMap_append

/-- **Reading undoes escaping**, for every text. -/
theorem unescape_escape (text : List Char) : unescape (escape text) = .ok text := by
  induction text with
  | nil => rw [escape_nil, unescape]
  | cons c text ih =>
    rw [escape_cons, unescape_escapeChar, ih]
    rfl

theorem escape_injective : Function.Injective escape := by
  intro a b h
  have hread := congrArg unescape h
  rw [unescape_escape, unescape_escape] at hread
  exact Except.ok.inj hread

end QuadStore.Text

namespace QuadStore

open Text

/-! ## Finding the closing quote -/

lemma splitAtQuote_cons {c : Char} (hbackslash : c ≠ '\\') (hquote : c ≠ '"')
    (rest : List Char) :
    splitAtQuote (c :: rest) = (splitAtQuote rest).map fun p => (c :: p.1, p.2) := by
  rw [splitAtQuote.eq_def]
  split <;> simp_all

/-- The four digits of an escape hold neither a backslash nor a quote. -/
lemma hexDigit_ne {n : Nat} (h : n < 16) : hexDigit n ≠ '\\' ∧ hexDigit n ≠ '"' := by
  revert n
  decide

lemma splitAtQuote_hexQuad (n : Nat) (rest : List Char) :
    splitAtQuote (hexQuad n ++ rest) =
      (splitAtQuote rest).map fun p => (hexQuad n ++ p.1, p.2) := by
  have plain : ∀ m rest, splitAtQuote (hexDigit (m % 16) :: rest) =
      (splitAtQuote rest).map fun p => (hexDigit (m % 16) :: p.1, p.2) := fun m rest =>
    have hm := hexDigit_ne (Nat.mod_lt m (by decide : 16 > 0))
    splitAtQuote_cons hm.1 hm.2 rest
  simp only [hexQuad, List.cons_append, List.nil_append, plain, Option.map_map]
  rfl

/-- The scanner for the closing quote passes over the escape of a character. -/
lemma splitAtQuote_escapeChar (c : Char) (rest : List Char) :
    splitAtQuote (escapeChar c ++ rest) =
      (splitAtQuote rest).map fun p => (escapeChar c ++ p.1, p.2) := by
  unfold escapeChar
  split_ifs with hbackslash hquote hnewline hreturn htab hcontrol
  · rfl
  · rfl
  · rfl
  · rfl
  · rfl
  · have hu : splitAtQuote ('\\' :: 'u' :: (hexQuad c.toNat ++ rest)) =
        (splitAtQuote (hexQuad c.toNat ++ rest)).map fun p => ('\\' :: 'u' :: p.1, p.2) := rfl
    rw [List.cons_append, List.cons_append, hu, splitAtQuote_hexQuad, Option.map_map]
    rfl
  · exact splitAtQuote_cons hbackslash hquote rest

lemma splitAtQuote_escape_append (text rest : List Char) :
    splitAtQuote (escape text ++ rest) =
      (splitAtQuote rest).map fun p => (escape text ++ p.1, p.2) := by
  induction text with
  | nil => simp
  | cons c text ih =>
    rw [escape_cons, List.append_assoc, splitAtQuote_escapeChar, ih, Option.map_map]
    simp [Function.comp_def]

/-- **The quote after an escaped text is the one that closes it**, whatever follows. -/
theorem splitAtQuote_escape (text rest : List Char) :
    splitAtQuote (escape text ++ '"' :: rest) = some (escape text, rest) := by
  rw [splitAtQuote_escape_append]
  simp [splitAtQuote]

end QuadStore
