import Mathlib
import QuadStore.Proofs.StatementRoundTrip
import QuadStore.Proofs.TermFormat

/-!
# Scanned tokens are decoded

A text is looked at twice: the scanners of the grammar find out where its terms end, and `Term.read`
takes each of these tokens apart once more.  Both look for the closing quote of a literal and both
have a say in what may follow it.  They agree: the tokens that are scanned have one of a few shapes
(`IsTermToken`), and of these shapes everything is read unless an escape is at fault (`EscapeFault`).

A backslash that stands alone at the end is a fault of IRIs only.  In a lexical form it would escape the
closing quote, and the scanner goes on behind that; so the escapes of a lexical form are never cut short
by its end (`unescape_ne_dangling`).

From the tokens this is carried over to whole texts, of which no reader reports a row that is too
short, nor any fault of the shape of a term (`token_faults`).  What remains for statements are terms of
the wrong kind.
-/

namespace QuadStore

open Text

namespace Text

/-- The escapes of a text that leaves nothing escaped behind it are not cut short by its end. -/
lemma unescape_ne_dangling {raw : List Char} (h : ¬ EscapesNext raw) :
    unescape raw ≠ .error .dangling := by
  fun_induction unescape raw with
  | case1 => simp
  | case2 c rest hc ih =>
    intro hread
    exact ih ((escapesNext_cons hc rest).not.mp h) (eq_error_of_map_eq_error hread)
  | case3 c hc =>
    obtain rfl := not_not.mp hc
    exact absurd (by decide) h
  | case4 c hc letter rest plain hshort ih =>
    intro hread
    obtain rfl := not_not.mp hc
    exact ih ((escapesNext_cons_cons letter rest).not.mp h) (eq_error_of_map_eq_error hread)
  | case5 c hc letter rest width hwidth _ plain hpoint ih =>
    intro hread
    obtain rfl := not_not.mp hc
    have hdigits := (codePoint?_eq_some_iff.mp hpoint).2.backslash_not_mem
    refine ih (fun hnext => h ?_) (eq_error_of_map_eq_error hread)
    rw [escapesNext_cons_cons, ← List.take_append_drop width rest, escapesNext_append hdigits]
    exact hnext
  | case6 => simp
  | case7 => simp

end Text

namespace Grammar

/-! ## The shapes of tokens -/

/-- What may follow the closing quote in the token of a literal. -/
inductive IsAnnotation : List Char → Prop
  | none : IsAnnotation []
  | language {tag : List Char} (hne : tag ≠ []) : IsAnnotation ('@' :: tag)
  | datatype (inner : List Char) : IsAnnotation ('^' :: '^' :: '<' :: (inner ++ ['>']))

/-- The shapes that the tokens of terms have. -/
inductive IsTermToken : List Char → Prop
  | iri (inner : List Char) : IsTermToken ('<' :: (inner ++ ['>']))
  | blank {label : List Char} (hne : label ≠ []) : IsTermToken ('_' :: ':' :: label)
  | literal {raw suffix : List Char} (hquotes : Quoteless raw) (hnext : ¬ EscapesNext raw)
    (hsuffix : IsAnnotation suffix) : IsTermToken ('"' :: (raw ++ '"' :: suffix))

/-- The faults of the escapes in a token, each with the part of the token that has it: an IRI, the
lexical form of a literal, or its datatype. -/
inductive EscapeFault : List Char → TermError → Prop
  | iri {inner : List Char} {fault : EscapeError} (h : unescape inner = .error fault) :
    EscapeFault ('<' :: (inner ++ ['>'])) (.ofEscape inner fault)
  | lexical {raw suffix : List Char} {fault : EscapeError} (hquotes : Quoteless raw)
    (h : unescape raw = .error fault) (hne : fault ≠ .dangling) :
    EscapeFault ('"' :: (raw ++ '"' :: suffix)) (.ofEscape raw fault)
  | datatype {raw inner : List Char} {fault : EscapeError} (hquotes : Quoteless raw)
    (hvalid : EscapeValid raw) (h : unescape inner = .error fault) :
    EscapeFault ('"' :: (raw ++ '"' :: '^' :: '^' :: '<' :: (inner ++ ['>']))) (.ofEscape inner fault)

variable {text token rest : List Char}

lemma enclosed_of_iri? (h : iri? text = some (token, rest)) :
    ∃ inner, token = '<' :: (inner ++ ['>']) := by
  unfold iri? at h
  split at h
  · split at h
    · cases h
      exact ⟨_, rfl⟩
    · cases h
  · cases h

lemma isAnnotation_of_taken {taken : List Char} (h : annotation text = (taken, rest)) :
    IsAnnotation taken := by
  unfold annotation at h
  split at h
  · split at h
    · rename_i tag _ htag
      cases h
      refine .language fun hnil => ?_
      obtain ⟨first, parts, htoList, ⟨hne, -⟩, -⟩ := isLanguageTag_of_language? htag
      rw [hnil, String.toList_ofList] at htoList
      exact hne (List.append_eq_nil_iff.mp htoList.symm).1
    · cases h
      exact .none
  · split at h
    · rename_i hiri
      cases h
      obtain ⟨inner, rfl⟩ := enclosed_of_iri? hiri
      exact .datatype inner
    · cases h
      exact .none
  · cases h
    exact .none

lemma isTermToken_of_literal? (h : literal? text = some (token, rest)) : IsTermToken token := by
  unfold literal? at h
  split at h
  · obtain ⟨⟨string, after⟩, hscan, hpair⟩ := Option.map_eq_some_iff.mp h
    obtain ⟨raw, rfl, hsplit⟩ := splitAtQuote_of_stringRest? hscan
    obtain ⟨-, hnext, hquotes⟩ := of_splitAtQuote (hsplit [])
    cases hpair
    rw [List.append_assoc]
    exact .literal hquotes hnext (isAnnotation_of_taken rfl)
  · cases h

lemma isTermToken_of_graphLabel? (h : graphLabel? text = some (token, rest)) :
    IsTermToken token ∧ token.head? ≠ some '"' := by
  rcases (Option.orElse_eq_some _ _ _).mp h with hiri | ⟨-, hnode⟩
  · obtain ⟨inner, rfl⟩ := enclosed_of_iri? hiri
    exact ⟨.iri inner, by simp⟩
  · obtain ⟨label, rfl, hlabel⟩ := blankNode?_eq_some hnode
    exact ⟨.blank (by simpa using hlabel.1), by simp⟩

/-- **What is scanned as a term has the shape of one.** -/
theorem isTermToken_of_term? (h : term? text = some (token, rest)) : IsTermToken token := by
  rcases (Option.orElse_eq_some _ _ _).mp h with hiri | ⟨-, hother⟩
  · obtain ⟨inner, rfl⟩ := enclosed_of_iri? hiri
    exact .iri inner
  · rcases (Option.orElse_eq_some _ _ _).mp hother with hnode | ⟨-, hliteral⟩
    · obtain ⟨label, rfl, hlabel⟩ := blankNode?_eq_some hnode
      exact .blank (by simpa using hlabel.1)
    · exact isTermToken_of_literal? hliteral

/-! ## Reading tokens -/

lemma escapeFault_of_iri_read {inner : List Char} {e : TermError}
    (h : Iri.read ('<' :: (inner ++ ['>'])) = .error e) :
    ∃ fault, unescape inner = .error fault ∧ e = .ofEscape inner fault := by
  rw [Iri.read, enclosed?_append] at h
  exact exists_of_unescapeText_eq_error (eq_error_of_map_eq_error h)

/-- **Of the shapes of terms only escapes are at fault.** -/
theorem IsTermToken.escapeFault {e : TermError} (h : IsTermToken token)
    (hread : Term.read token = .error e) : EscapeFault token e := by
  cases h with
  | iri inner =>
    obtain ⟨fault, hfault, rfl⟩ := escapeFault_of_iri_read (eq_error_of_map_eq_error hread)
    exact .iri hfault
  | blank hne =>
    obtain ⟨c, label, rfl⟩ := List.exists_cons_of_ne_nil hne
    cases hread
  | @literal raw suffix hquotes hnext hsuffix =>
    have hliteral := eq_error_of_map_eq_error hread
    rw [Literal.read_quoted hquotes hnext] at hliteral
    cases hlexical : unescapeText raw with
    | error fault =>
      rw [hlexical] at hliteral
      cases hliteral
      obtain ⟨escape, hescape, rfl⟩ := exists_of_unescapeText_eq_error hlexical
      refine .lexical hquotes hescape ?_
      rintro rfl
      exact unescape_ne_dangling hnext hescape
    | ok lexical =>
      replace hliteral : Literal.annotate ('"' :: (raw ++ '"' :: suffix)) lexical suffix = .error e := by
        rwa [hlexical] at hliteral
      obtain ⟨plain, hplain, -⟩ := unescapeText_eq_ok_iff.mp hlexical
      cases hsuffix with
      | none => cases hliteral
      | language hne =>
        obtain ⟨c, tag, rfl⟩ := List.exists_cons_of_ne_nil hne
        cases hliteral
      | datatype inner =>
        obtain ⟨fault, hfault, rfl⟩ := escapeFault_of_iri_read (eq_error_of_map_eq_error hliteral)
        exact .datatype hquotes ⟨plain, hplain⟩ hfault

/-- A token that cannot be read as a resource has an escape at fault or is a literal. -/
lemma IsTermToken.resource_cases {e : TermError} (h : IsTermToken token)
    (hread : Resource.read token = .error e) : EscapeFault token e ∨
      ∃ l, Term.read token = .ok (.literal l) ∧ e = .expectedSubject (String.ofList token) := by
  unfold Resource.read at hread
  split at hread
  · rename_i fault hterm
    cases hread
    exact .inl (h.escapeFault hterm)
  · rename_i term hterm
    cases term with
    | iri i => cases hread
    | blank b => cases hread
    | literal l =>
      cases hread
      exact .inr ⟨l, hterm, rfl⟩

/-- A token that cannot be read as an IRI has an escape at fault or is none. -/
lemma IsTermToken.iri_cases {e : TermError} (h : IsTermToken token)
    (hread : Iri.read token = .error e) : EscapeFault token e ∨
      token.head? ≠ some '<' ∧ e = .expectedIri (String.ofList token) := by
  cases h with
  | iri inner =>
    obtain ⟨fault, hfault, rfl⟩ := escapeFault_of_iri_read hread
    exact .inl (.iri hfault)
  | blank hne =>
    cases hread
    exact .inr ⟨by simp, rfl⟩
  | literal hquotes hnext hsuffix =>
    cases hread
    exact .inr ⟨by simp, rfl⟩

/-- The name of a graph cannot be read only if an escape is at fault. -/
lemma escapeFault_of_graphLabel? {e : TermError} (h : graphLabel? text = some (token, rest))
    (hread : GraphName.read token = .error e) : EscapeFault token e := by
  obtain ⟨htoken, hquote⟩ := isTermToken_of_graphLabel? h
  unfold GraphName.read at hread
  split at hread
  · cases hread
  · rcases htoken.resource_cases (eq_error_of_map_eq_error hread) with hescape | ⟨l, hterm, -⟩
    · exact hescape
    · cases Term.read_eq_ok_iff.mp hterm with
      | literal => exact absurd rfl hquote

/-! ## Rows -/

/-- Of the tokens of slots those of terms have a shape of their own. -/
def IsSlotToken : SlotToken → Prop
  | .written token => IsTermToken token
  | _ => True

/-- A row of three slots. -/
def IsPatternRow (row : List SlotToken) : Prop :=
  ∃ subject predicate object, row = [subject, predicate, object] ∧
    ∀ token ∈ row, IsSlotToken token

lemma isSlotToken_of_as {kind : List Char → SlotToken} {scanned : Scanned} {token : SlotToken}
    (h : as kind scanned = some (token, rest))
    (hkind : ∀ text after, scanned = some (text, after) → IsSlotToken (kind text)) :
    IsSlotToken token := by
  obtain ⟨⟨text, after⟩, hscan, hpair⟩ := Option.map_eq_some_iff.mp h
  cases hpair
  exact hkind text rest hscan

lemma isSlotToken_of_slot? {token : SlotToken} (h : slot? text = some (token, rest)) :
    IsSlotToken token := by
  have hother : ∀ kind scanned, as kind scanned = some (token, rest) →
      (∀ text, IsSlotToken (kind text)) → IsSlotToken token := fun _ _ hscan hkind =>
    isSlotToken_of_as hscan fun text _ _ => hkind text
  rcases (Option.orElse_eq_some _ _ _).mp h with hvar | ⟨-, h⟩
  · exact hother _ _ hvar fun _ => trivial
  rcases (Option.orElse_eq_some _ _ _).mp h with hterm | ⟨-, h⟩
  · exact isSlotToken_of_as hterm fun text after hscan => isTermToken_of_term? hscan
  rcases (Option.orElse_eq_some _ _ _).mp h with hnumber | ⟨-, h⟩
  · exact hother _ _ hnumber fun _ => trivial
  rcases (Option.orElse_eq_some _ _ _).mp h with htrue | ⟨-, h⟩
  · exact hother _ _ htrue fun _ => trivial
  rcases (Option.orElse_eq_some _ _ _).mp h with hfalse | ⟨-, hisA⟩
  · exact hother _ _ hfalse fun _ => trivial
  · exact hother _ _ hisA fun _ => trivial

lemma isPatternRow_of_pattern? {row : List SlotToken} (h : pattern? text = some (row, rest)) :
    IsPatternRow row := by
  simp only [pattern?, Option.bind_eq_bind, Option.bind_eq_some_iff] at h
  obtain ⟨⟨subject, first⟩, hsubject, ⟨predicate, second⟩, hpredicate, ⟨object, third⟩, hobject,
    hrow⟩ := h
  cases hrow
  refine ⟨subject, predicate, object, rfl, ?_⟩
  simp only [List.forall_mem_cons, List.not_mem_nil, false_implies, implies_true, and_true]
  exact ⟨isSlotToken_of_slot? hsubject, isSlotToken_of_slot? hpredicate,
    isSlotToken_of_slot? hobject⟩

lemma isPatternRow_of_mem_morePatterns {row : List SlotToken} {limit : Nat}
    (h : row ∈ (morePatterns limit text).1) : IsPatternRow row := by
  induction limit generalizing text with
  | zero => cases h
  | succ limit ih =>
    unfold morePatterns at h
    split at h
    · cases h
    · rename_i first after hfirst
      rcases List.mem_cons.mp h with rfl | hrest
      · simp only [nextPattern?, Option.bind_eq_bind, Option.bind_eq_some_iff] at hfirst
        obtain ⟨_, -, hpattern⟩ := hfirst
        exact isPatternRow_of_pattern? hpattern
      · exact ih hrest

lemma isPatternRow_of_mem_patterns {row : List SlotToken} (h : row ∈ (patterns text).1) :
    IsPatternRow row := by
  unfold patterns at h
  split at h
  · cases h
  · rename_i first after hfirst
    rcases List.mem_cons.mp h with rfl | hrest
    · exact isPatternRow_of_pattern? hfirst
    · exact isPatternRow_of_mem_morePatterns hrest

/-- **The rows of a query have three slots each**, and their terms the shapes of terms. -/
theorem isPatternRow_of_query? {rows : List (List SlotToken)} (h : query? text = some rows) :
    ∀ row ∈ rows, IsPatternRow row := by
  simp only [query?] at h
  split at h
  · cases h
    intro row hrow
    cases hbraced : braced? (skip text) with
    | none =>
      rw [hbraced] at hrow
      exact isPatternRow_of_mem_patterns hrow
    | some found =>
      rw [hbraced] at hrow
      simp only [braced?, Option.bind_eq_bind, Option.bind_eq_some_iff] at hbraced
      obtain ⟨_, -, _, -, hfound⟩ := hbraced
      cases hfound
      exact isPatternRow_of_mem_patterns hrow
  · cases h

lemma isSlotToken_of_single? {row : List SlotToken} (h : single? text = some row) :
    ∃ token, row = [token] ∧ IsSlotToken token := by
  simp only [single?, Option.bind_eq_bind, Option.bind_eq_some_iff] at h
  obtain ⟨⟨token, after⟩, hslot, h⟩ := h
  split at h
  · cases h
    exact ⟨token, rfl, isSlotToken_of_slot? hslot⟩
  · cases h

/-- **The row of a statement** has three terms, and behind them at most the name of a graph. -/
theorem isTermToken_of_statement? {row : List (List Char)} (h : statement? text = some (row, rest)) :
    ∃ subject predicate object labels, row = subject :: predicate :: object :: labels ∧
      (IsTermToken subject ∧ IsTermToken predicate ∧ IsTermToken object) ∧
      ∀ label ∈ labels, ∃ text after, graphLabel? text = some (label, after) := by
  obtain ⟨subject, predicate, object, first, second, third, rfl, hsubject, hpredicate, hobject⟩ :=
    exists_of_statement? h
  refine ⟨subject, predicate, object, _, rfl, ⟨isTermToken_of_term? hsubject,
    isTermToken_of_term? hpredicate, isTermToken_of_term? hobject⟩, fun label hlabel => ?_⟩
  obtain ⟨⟨_, after⟩, hscan, rfl⟩ := Option.map_eq_some_iff.mp (Option.mem_toList.mp hlabel)
  exact ⟨_, after, hscan⟩

lemma statement?_of_line? {row : List (List Char)} (h : line? text = some (some row)) :
    ∃ rest, statement? (skip text) = some (row, rest) := by
  simp only [line?] at h
  split at h
  · rename_i found rest hstatement
    split at h
    · cases h
      exact ⟨rest, hstatement⟩
    · cases h
  · split at h <;> cases h

/-! ## Faults of texts -/

/-- The faults that a query has: it has another form, or an escape is at fault in a term. -/
inductive QueryFault (text : List Char) : ReadFault → Prop
  | form (h : query? text = none) : QueryFault text (.invalid .notInGrammar)
  | escape {rows : List (List SlotToken)} {row : List SlotToken} {token : List Char} {e : TermError}
    (hrows : query? text = some rows) (hrow : row ∈ rows) (htoken : .written token ∈ row)
    (h : EscapeFault token e) : QueryFault text (.invalid (.term e))

/-- The faults that a single term has. -/
inductive SingleFault (text : List Char) : ReadFault → Prop
  | form (h : single? text = none) : SingleFault text (.invalid .notInGrammar)
  | variable {name : List Char} (h : single? text = some [.var name]) :
    SingleFault text (.invalid (.unexpectedVariable ⟨String.ofList (name.drop 1)⟩))
  | escape {token : List Char} {e : TermError} (hrow : single? text = some [.written token])
    (h : EscapeFault token e) : SingleFault text (.invalid (.term e))

/-- The faults of the terms of a statement: an escape, a literal as the subject, and a predicate that
is no IRI. -/
inductive RowFault : List (List Char) → TermError → Prop
  | escape {row : List (List Char)} {token : List Char} {e : TermError} (htoken : token ∈ row)
    (h : EscapeFault token e) : RowFault row e
  | subject {token : List Char} {row : List (List Char)} {l : Literal}
    (h : Term.read token = .ok (.literal l)) :
    RowFault (token :: row) (.expectedSubject (String.ofList token))
  | predicate {subject token : List Char} {row : List (List Char)} (h : token.head? ≠ some '<') :
    RowFault (subject :: token :: row) (.expectedIri (String.ofList token))

/-- The faults that a line has. -/
inductive LineFault (text : List Char) : ReadFault → Prop
  | form (h : line? text = none) : LineFault text (.invalid .notInGrammar)
  | row {row : List (List Char)} {e : TermError} (hrow : line? text = some (some row))
    (h : RowFault row e) : LineFault text (.invalid (.term e))

/-! ## Reading rows -/

lemma cases_of_bind_eq_error {ε α β : Type} {x : Except ε α} {f : α → Except ε β} {e : ε}
    (h : x.bind f = .error e) : x = .error e ∨ ∃ a, x = .ok a ∧ f a = .error e := by
  cases x with
  | error fault => exact .inl (congrArg Except.error (Except.error.inj h))
  | ok a => exact .inr ⟨a, rfl, h⟩

/-- A row of readings fails at one of them. -/
lemma exists_of_mapM_eq_error {ε α β : Type} {f : α → Except ε β} {list : List α} {e : ε}
    (h : list.mapM f = .error e) : ∃ a ∈ list, f a = .error e := by
  induction list with
  | nil => cases h
  | cons first list ih =>
    rw [List.mapM_cons] at h
    rcases cases_of_bind_eq_error h with hfirst | ⟨b, -, h⟩
    · exact ⟨first, List.mem_cons_self, hfirst⟩
    · rcases cases_of_bind_eq_error h with hrest | ⟨bs, -, h⟩
      · obtain ⟨a, ha, hfault⟩ := ih hrest
        exact ⟨a, List.mem_cons_of_mem first ha, hfault⟩
      · cases h

lemma exists_of_readAs_eq_error {α : Type} {read : Except TermError α} {fault : ReadFault}
    (h : readAs read = .error fault) : ∃ e, read = .error e ∧ fault = .invalid (.term e) := by
  cases read with
  | error e => exact ⟨e, rfl, (Except.error.inj h).symm⟩
  | ok a => cases h

/-- A slot cannot be read only if an escape of its term is at fault. -/
lemma IsSlotToken.escapeFault {token : SlotToken} {fault : ReadFault} (h : IsSlotToken token)
    (hread : token.read = .error fault) :
    ∃ text e, token = .written text ∧ EscapeFault text e ∧ fault = .invalid (.term e) := by
  cases token with
  | written text =>
    obtain ⟨e, he, rfl⟩ := exists_of_readAs_eq_error (eq_error_of_map_eq_error hread)
    exact ⟨text, e, rfl, IsTermToken.escapeFault h he, rfl⟩
  | var text => cases hread
  | number text => cases hread
  | truth text => cases hread
  | isA => cases hread

/-- From a row of three tokens all are taken before the first is read. -/
lemma readPattern_row (text : List Char) (subject predicate object : SlotToken) :
    readPattern text [subject, predicate, object] = (do
      return ⟨← subject.read, ← predicate.read, ← object.read⟩) := rfl

lemma IsPatternRow.exists_of_readPattern {row : List SlotToken} {fault : ReadFault}
    (h : IsPatternRow row) (hread : readPattern text row = .error fault) :
    ∃ token ∈ row, token.read = .error fault := by
  obtain ⟨subject, predicate, object, rfl, -⟩ := h
  rw [readPattern_row] at hread
  rcases cases_of_bind_eq_error hread with hsubject | ⟨s, -, hread⟩
  · exact ⟨subject, by simp, hsubject⟩
  rcases cases_of_bind_eq_error hread with hpredicate | ⟨p, -, hread⟩
  · exact ⟨predicate, by simp, hpredicate⟩
  rcases cases_of_bind_eq_error hread with hobject | ⟨o, -, hread⟩
  · exact ⟨object, by simp, hobject⟩
  · cases hread

theorem queryFault_of_readQuery {fault : ReadFault} (h : readQuery text = .error fault) :
    QueryFault text fault := by
  unfold readQuery at h
  split at h
  · rename_i hnone
    cases h
    exact .form hnone
  · rename_i rows hrows
    obtain ⟨row, hrow, hread⟩ := exists_of_mapM_eq_error h
    have hshape := isPatternRow_of_query? hrows row hrow
    obtain ⟨token, htoken, hfault⟩ := hshape.exists_of_readPattern hread
    obtain ⟨_, _, _, -, hslots⟩ := hshape
    obtain ⟨written, e, rfl, hescape, rfl⟩ := (hslots token htoken).escapeFault hfault
    exact .escape hrows hrow htoken hescape

theorem singleFault_of_readTerm {fault : ReadFault} (h : readTerm text = .error fault) :
    SingleFault text fault := by
  unfold readTerm at h
  split at h
  · rename_i hnone
    cases h
    exact .form hnone
  · rename_i row hrow
    obtain ⟨token, rfl, hslot⟩ := isSlotToken_of_single? hrow
    have hsingle : (do concrete (← token.read)) = Except.error fault := h
    rcases cases_of_bind_eq_error hsingle with hread | ⟨slot, hread, h⟩
    · obtain ⟨written, e, rfl, hescape, rfl⟩ := hslot.escapeFault hread
      exact .escape hrow hescape
    · cases slot with
      | term term => cases h
      | var v =>
        cases h
        -- Of the tokens only that of a variable is read as one.
        cases token with
        | var name =>
          cases hread
          exact .variable hrow
        | written written =>
          obtain ⟨term, -, hslot⟩ := exists_of_map_eq_ok hread
          cases hslot
        | number text => cases hread
        | truth text => cases hread
        | isA => cases hread

/-- The terms of a row are at fault in one of three ways, and the name of a graph in one. -/
theorem lineFault_of_readStatement {fault : ReadFault} (h : readStatement text = .error fault) :
    LineFault text fault := by
  unfold readStatement at h
  split at h
  · rename_i hnone
    cases h
    exact .form hnone
  · cases h
  · rename_i row hrow
    obtain ⟨rest, hstatement⟩ := statement?_of_line? hrow
    obtain ⟨subject, predicate, object, labels, rfl, ⟨hsubject, hpredicate, hobject⟩, hlabels⟩ :=
      isTermToken_of_statement? hstatement
    have hread := eq_error_of_map_eq_error h
    rw [readQuad_row] at hread
    rcases cases_of_bind_eq_error hread with hfault | ⟨s, -, hread⟩
    · obtain ⟨e, he, rfl⟩ := exists_of_readAs_eq_error hfault
      rcases hsubject.resource_cases he with hescape | ⟨l, hliteral, rfl⟩
      · exact .row hrow (.escape (by simp) hescape)
      · exact .row hrow (.subject hliteral)
    rcases cases_of_bind_eq_error hread with hfault | ⟨p, -, hread⟩
    · obtain ⟨e, he, rfl⟩ := exists_of_readAs_eq_error hfault
      rcases hpredicate.iri_cases he with hescape | ⟨hiri, rfl⟩
      · exact .row hrow (.escape (by simp) hescape)
      · exact .row hrow (.predicate hiri)
    rcases cases_of_bind_eq_error hread with hfault | ⟨o, -, hread⟩
    · obtain ⟨e, he, rfl⟩ := exists_of_readAs_eq_error hfault
      exact .row hrow (.escape (by simp) (hobject.escapeFault he))
    rcases cases_of_bind_eq_error hread with hfault | ⟨g, -, hread⟩
    · cases labels with
      | nil => cases hfault
      | cons label labels =>
        obtain ⟨e, he, rfl⟩ := exists_of_readAs_eq_error hfault
        obtain ⟨behind, after, hlabel⟩ := hlabels label List.mem_cons_self
        exact .row hrow (.escape (by simp) (escapeFault_of_graphLabel? hlabel he))
    · cases hread

/-- What a parser reports is what its reader reports, if no row is too short for that. -/
lemma invalid_of_toParseError {α : Type} {read : Except ReadFault α} {Fault : ReadFault → Prop}
    (hread : ∀ fault, read = .error fault → Fault fault) (hempty : ∀ w, ¬ Fault (.empty w))
    {e : ParseError} (h : read.mapError ReadFault.toParseError = .error e) : Fault (.invalid e) := by
  cases read with
  | error fault =>
    cases h
    cases fault with
    | empty w => exact absurd (hread _ rfl) (hempty w)
    | invalid e => exact hread _ rfl
  | ok a => cases h

/-- **Of a text that is taken apart only its escapes are at fault.**  A scanned term is decoded unless
an escape is at fault in it; the closing quote, the annotation and the kind of a term are never.  So
queries and single terms have no other faults of terms, and statements only those of a literal as the
subject and of a predicate that is no IRI.  No row of tokens is ever too short. -/
theorem only_escapes_at_fault (text : List Char) :
    (∀ token rest e, term? text = some (token, rest) → Term.read token = .error e →
      EscapeFault token e) ∧
    ((∀ fault, readQuery text = .error fault → QueryFault text fault) ∧
      ∀ e, parseQuery text = .error e → QueryFault text (.invalid e)) ∧
    ((∀ fault, readTerm text = .error fault → SingleFault text fault) ∧
      ∀ e, parseTerm text = .error e → SingleFault text (.invalid e)) ∧
    (∀ fault, readStatement text = .error fault → LineFault text fault) ∧
      ∀ e, parseStatement text = .error e → LineFault text (.invalid e) := by
  have hquery : ∀ fault, readQuery text = .error fault → QueryFault text fault :=
    fun fault => queryFault_of_readQuery
  have hsingle : ∀ fault, readTerm text = .error fault → SingleFault text fault :=
    fun fault => singleFault_of_readTerm
  have hline : ∀ fault, readStatement text = .error fault → LineFault text fault :=
    fun fault => lineFault_of_readStatement
  refine ⟨fun token rest e hscan hread => (isTermToken_of_term? hscan).escapeFault hread,
    ⟨hquery, fun e => invalid_of_toParseError hquery ?_⟩,
    ⟨hsingle, fun e => invalid_of_toParseError hsingle ?_⟩,
    hline, fun e => invalid_of_toParseError hline ?_⟩
  all_goals
    intro w h
    cases h

/-- A lexical form with an unknown escape; a query, a term and a line with a backslash before a closing
bracket; and a line about a literal, and one with a blank node for its predicate. -/
theorem only_escapes_at_fault_kinds :
    EscapeFault "\"\\q\"@en".toList (.unknownEscape 'q' "\\q") ∧
      QueryFault "?s <p\\> ?o".toList (.invalid (.term (.danglingEscape "p\\"))) ∧
      SingleFault "\"\\\"\"^^<d\\>".toList (.invalid (.term (.danglingEscape "d\\"))) ∧
      SingleFault "?x".toList (.invalid (.unexpectedVariable ⟨"x"⟩)) ∧
      LineFault "<s> <p> \"o\" <g\\> .".toList (.invalid (.term (.danglingEscape "g\\"))) ∧
      LineFault "\"s\" <p> <o> .".toList (.invalid (.term (.expectedSubject "\"s\""))) ∧
      LineFault "<s> _:p <o> .".toList (.invalid (.term (.expectedIri "_:p"))) := by
  refine ⟨(only_escapes_at_fault "\"\\q\"@en .".toList).1 _ [' ', '.'] _ (by decide +kernel) (by decide +kernel),
    (only_escapes_at_fault _).2.1.1 _ (by decide +kernel), (only_escapes_at_fault _).2.2.1.1 _ (by decide +kernel),
    (only_escapes_at_fault _).2.2.1.2 _ (by decide +kernel), (only_escapes_at_fault _).2.2.2.1 _ (by decide +kernel),
    (only_escapes_at_fault _).2.2.2.1 _ (by decide +kernel), (only_escapes_at_fault _).2.2.2.2 _ (by decide +kernel)⟩

end Grammar

end QuadStore
