import Mathlib
import QuadStore.Proofs.TermRoundTrip

/-!
# The format of terms

`Term.decode` is a scanner: it looks for a closing quote, counts off digits and takes suffixes apart.
This module says which texts there are in the format without scanning, and that these are the texts that
are read, as the terms that they spell (`decode_reads_format`).

The format has two parts that a scanner could get wrong.  Between delimiters a text is a sequence of
characters and escapes (`Unescapes`); an escape that names a character by its number has four digits or
eight, no more and no fewer, and the number is that of a character.  And a literal ends at the first
quote that is not escaped.  A quote is escaped if the backslashes right before it are odd in number
(`EscapesNext`).  The scanner does not count backslashes, but goes from the left and passes over what
follows each one.  The two agree because a backslash that was passed over escapes nothing, and then the
scanner finds just the quote that the count says (`splitAtQuote_eq_some_iff`).
-/

namespace QuadStore

namespace Text

/-! ## Numbers in base sixteen -/

/-- A digit of either case and its value. -/
def IsHexDigit (c : Char) (value : Nat) : Prop :=
  value < 16 ∧ (c = Nat.digitChar value ∨ c = (Nat.digitChar value).toUpper)

instance (c : Char) (value : Nat) : Decidable (IsHexDigit c value) :=
  inferInstanceAs (Decidable (_ ∧ _))

/-- Digits that write a number, the first of them counting most. -/
def WritesHex (digits : List Char) (n : Nat) : Prop :=
  ∃ values : List Nat, List.Forall₂ IsHexDigit digits values ∧ n = Nat.ofDigits 16 values.reverse

lemma hexValue?_eq_some_iff {c : Char} {value : Nat} :
    hexValue? c = some value ↔ IsHexDigit c value := by
  constructor
  · intro h
    have hascii : c.toNat < 128 := by
      simp only [hexValue?, Char.le_def, UInt32.le_iff_toNat_le] at h
      by_contra hlarge
      have hnat : c.val.toNat = c.toNat := rfl
      have h9 : ('9' : Char).val.toNat = 57 := rfl
      have hf : ('f' : Char).val.toNat = 102 := rfl
      have hF : ('F' : Char).val.toNat = 70 := rfl
      rw [if_neg (by omega), if_neg (by omega), if_neg (by omega)] at h
      cases h
    have hall : ∀ n < 128, ∀ v ∈ hexValue? (Char.ofNat n), IsHexDigit (Char.ofNat n) v := by decide
    have hdigit := hall c.toNat hascii value
    rw [Char.ofNat_toNat] at hdigit
    exact hdigit h
  · rintro ⟨hvalue, hc⟩
    have hlower : ∀ v < 16, hexValue? (Nat.digitChar v) = some v := by decide
    have hupper : ∀ v < 16, hexValue? (Nat.digitChar v).toUpper = some v := by decide
    rcases hc with rfl | rfl
    · exact hlower value hvalue
    · exact hupper value hvalue

lemma hexNumber?_eq_some_iff {digits : List Char} {start n : Nat} :
    hexNumber? start digits = some n ↔ ∃ values : List Nat, List.Forall₂ IsHexDigit digits values ∧
      n = start * 16 ^ digits.length + Nat.ofDigits 16 values.reverse := by
  induction digits generalizing start with
  | nil => simp [hexNumber?, eq_comm]
  | cons c digits ih =>
    simp only [hexNumber?, Option.bind_eq_some_iff, hexValue?_eq_some_iff, ih,
      List.forall₂_cons_left_iff]
    constructor
    · rintro ⟨value, hc, values, hdigits, rfl⟩
      refine ⟨value :: values, ⟨value, values, hc, hdigits, rfl⟩, ?_⟩
      rw [List.reverse_cons, Nat.ofDigits_append, List.length_reverse, ← hdigits.length_eq,
        Nat.ofDigits_singleton, List.length_cons]
      ring
    · rintro ⟨_, ⟨value, values, hc, hdigits, rfl⟩, rfl⟩
      refine ⟨value, hc, values, hdigits, ?_⟩
      rw [List.reverse_cons, Nat.ofDigits_append, List.length_reverse, ← hdigits.length_eq,
        Nat.ofDigits_singleton, List.length_cons]
      ring

/-- A number is read off digits just if they write it. -/
lemma hexNumber?_zero_eq_some_iff {digits : List Char} {n : Nat} :
    hexNumber? 0 digits = some n ↔ WritesHex digits n := by
  rw [hexNumber?_eq_some_iff]
  simp [WritesHex]

/-- Only the number of a character has a character. -/
lemma scalar?_eq_some_iff {n : Nat} {c : Char} : scalar? n = some c ↔ n = c.toNat := by
  constructor
  · intro h
    unfold scalar? at h
    split at h
    · rename_i hvalid
      cases h
      rfl
    · cases h
  · rintro rfl
    exact scalar?_toNat c

/-- Digits of the right number name the character whose number they write. -/
lemma codePoint?_eq_some_iff {width : Nat} {digits : List Char} {c : Char} :
    codePoint? width digits = some c ↔ digits.length = width ∧ WritesHex digits c.toNat := by
  unfold codePoint?
  split
  · rename_i hlength
    simp [hlength, Option.bind_eq_some_iff, hexNumber?_zero_eq_some_iff, scalar?_eq_some_iff]
  · rename_i hlength
    simp [hlength]

/-! ## Texts with escapes -/

/-- The letters of the short escapes and what they stand for. -/
def shortEscapes : List (Char × Char) :=
  [('t', '\t'), ('b', '\x08'), ('n', '\n'), ('r', '\r'), ('f', '\x0C'), ('"', '"'), ('\'', '\''),
    ('\\', '\\')]

/-- The escapes and the characters that they stand for. -/
inductive IsEscape : List Char → Char → Prop
  | short {letter c : Char} (h : (letter, c) ∈ shortEscapes) : IsEscape ['\\', letter] c
  | four {digits : List Char} {c : Char} (hlength : digits.length = 4)
    (h : WritesHex digits c.toNat) : IsEscape ('\\' :: 'u' :: digits) c
  | eight {digits : List Char} {c : Char} (hlength : digits.length = 8)
    (h : WritesHex digits c.toNat) : IsEscape ('\\' :: 'U' :: digits) c

/-- A sequence of escapes and of characters other than the backslash, with the text for which it stands:
each escape is replaced by its character. -/
inductive Unescapes : List Char → List Char → Prop
  | nil : Unescapes [] []
  | plain {c : Char} {raw text : List Char} (hc : c ≠ '\\') (h : Unescapes raw text) :
    Unescapes (c :: raw) (c :: text)
  | escape {token : List Char} {c : Char} {raw text : List Char} (htoken : IsEscape token c)
    (h : Unescapes raw text) : Unescapes (token ++ raw) (c :: text)

/-- A text that is such a sequence. -/
def EscapeValid (raw : List Char) : Prop := ∃ text, Unescapes raw text

lemma shortEscape?_eq_some_iff {letter c : Char} :
    shortEscape? letter = some c ↔ (letter, c) ∈ shortEscapes := by
  constructor
  · intro h
    unfold shortEscape? at h
    split at h <;> cases h <;> decide
  · intro h
    simp only [shortEscapes, List.mem_cons, Prod.mk.injEq, List.not_mem_nil, or_false] at h
    rcases h with h | h | h | h | h | h | h | h <;> obtain ⟨rfl, rfl⟩ := h <;> rfl

lemma unescape_codePoint {letter c : Char} {width : Nat} {digits : List Char}
    (hwidth : codePointWidth? letter = some width) (hlength : digits.length = width)
    (h : WritesHex digits c.toNat) (rest : List Char) :
    unescape ('\\' :: letter :: (digits ++ rest)) = (unescape rest).map (c :: ·) := by
  have hshort : shortEscape? letter = none := by
    unfold codePointWidth? at hwidth
    split at hwidth
    · rfl
    · rfl
    · cases hwidth
  have hc : codePoint? digits.length digits = some c := codePoint?_eq_some_iff.mpr ⟨rfl, h⟩
  subst hlength
  rw [unescape.eq_def]
  simp [hshort, hwidth, hc]

lemma isEscape_codePoint {letter c : Char} {width : Nat} {digits : List Char}
    (hwidth : codePointWidth? letter = some width) (h : codePoint? width digits = some c) :
    IsEscape ('\\' :: letter :: digits) c := by
  obtain ⟨hlength, hdigits⟩ := codePoint?_eq_some_iff.mp h
  unfold codePointWidth? at hwidth
  split at hwidth <;> cases hwidth
  · exact .four hlength hdigits
  · exact .eight hlength hdigits

/-- **What is read of a text with escapes** is what it stands for, and nothing else is read. -/
theorem unescape_eq_ok_iff {raw text : List Char} : unescape raw = .ok text ↔ Unescapes raw text := by
  constructor
  · intro h
    fun_induction unescape raw generalizing text with
    | case1 =>
      cases h
      exact .nil
    | case2 c rest hc ih =>
      obtain ⟨text, hrest, rfl⟩ := exists_of_map_eq_ok h
      exact .plain hc (ih hrest)
    | case3 => cases h
    | case4 c hc letter rest plain hshort ih =>
      obtain ⟨text, hrest, rfl⟩ := exists_of_map_eq_ok h
      obtain rfl := not_not.mp hc
      exact .escape (.short (shortEscape?_eq_some_iff.mp hshort)) (ih hrest)
    | case5 c hc letter rest width hwidth _ plain hpoint ih =>
      obtain ⟨text, hrest, rfl⟩ := exists_of_map_eq_ok h
      obtain rfl := not_not.mp hc
      have htext := Unescapes.escape (isEscape_codePoint hwidth hpoint) (ih hrest)
      rwa [List.cons_append, List.cons_append, List.take_append_drop] at htext
    | case6 => cases h
    | case7 => cases h
  · intro h
    induction h with
    | nil => rw [unescape]
    | plain hc _ ih =>
      rw [unescape_cons hc, ih]
      rfl
    | escape htoken _ ih =>
      cases htoken with
      | short h =>
        rw [List.cons_append, List.cons_append, List.nil_append,
          unescape_short (shortEscape?_eq_some_iff.mpr h), ih]
        rfl
      | four hlength h =>
        rw [List.cons_append, List.cons_append, unescape_codePoint rfl hlength h, ih]
        rfl
      | eight hlength h =>
        rw [List.cons_append, List.cons_append, unescape_codePoint rfl hlength h, ih]
        rfl

/-! ## Escaped quotes -/

/-- What comes next after these characters is escaped: the backslashes right before it are odd in
number. -/
def EscapesNext (before : List Char) : Prop := Odd (before.rtakeWhile (· == '\\')).length

instance (before : List Char) : Decidable (EscapesNext before) := inferInstanceAs (Decidable (Odd _))

/-- Every quote of a text is escaped. -/
def Quoteless (text : List Char) : Prop :=
  ∀ before after, text = before ++ '"' :: after → EscapesNext before

lemma not_escapesNext_nil : ¬ EscapesNext [] := by decide

/-- A backslash escapes what comes next, unless it is escaped itself. -/
lemma escapesNext_concat (before : List Char) (c : Char) :
    EscapesNext (before ++ [c]) ↔ c = '\\' ∧ ¬ EscapesNext before := by
  unfold EscapesNext
  by_cases hc : c = '\\'
  · rw [List.rtakeWhile_concat_pos _ _ _ (by simpa using hc), List.length_append,
      List.length_singleton, Nat.odd_add_one]
    simp [hc]
  · rw [List.rtakeWhile_concat_neg _ _ _ (by simpa using hc)]
    simp [hc]

/-- Any other character has no say in what is escaped behind it. -/
lemma escapesNext_cons {c : Char} (hc : c ≠ '\\') (before : List Char) :
    EscapesNext (c :: before) ↔ EscapesNext before := by
  induction before using List.reverseRecOn with
  | nil =>
    have hconcat := escapesNext_concat [] c
    rw [List.nil_append] at hconcat
    simp [hconcat, hc, not_escapesNext_nil]
  | append_singleton before d ih =>
    rw [← List.cons_append, escapesNext_concat, escapesNext_concat, ih]

/-- Neither have a backslash and the character that it escapes. -/
lemma escapesNext_cons_cons (c : Char) (before : List Char) :
    EscapesNext ('\\' :: c :: before) ↔ EscapesNext before := by
  induction before using List.reverseRecOn with
  | nil =>
    have hfirst : EscapesNext ['\\'] := by decide
    have hconcat := escapesNext_concat ['\\'] c
    rw [List.singleton_append] at hconcat
    simp [hconcat, hfirst, not_escapesNext_nil]
  | append_singleton before d ih =>
    rw [← List.cons_append, ← List.cons_append, escapesNext_concat, escapesNext_concat, ih]

lemma quoteless_nil : Quoteless [] := by simp [Quoteless]

lemma not_quoteless_quote (rest : List Char) : ¬ Quoteless ('"' :: rest) := fun h =>
  not_escapesNext_nil (h [] rest rfl)

lemma quoteless_cons {c : Char} (hbackslash : c ≠ '\\') (hquote : c ≠ '"') (text : List Char) :
    Quoteless (c :: text) ↔ Quoteless text := by
  constructor
  · rintro h before after rfl
    exact (escapesNext_cons hbackslash before).mp (h (c :: before) after rfl)
  · rintro h (_ | ⟨d, before⟩) after htext
    · exact absurd (List.cons.inj htext).1 hquote
    · obtain ⟨rfl, hrest⟩ := List.cons.inj htext
      exact (escapesNext_cons hbackslash before).mpr (h before after hrest)

lemma quoteless_cons_cons (c : Char) (text : List Char) :
    Quoteless ('\\' :: c :: text) ↔ Quoteless text := by
  constructor
  · rintro h before after rfl
    exact (escapesNext_cons_cons c before).mp (h ('\\' :: c :: before) after rfl)
  · rintro h (_ | ⟨d, before⟩) after htext
    · exact absurd (List.cons.inj htext).1 (by decide)
    · obtain ⟨hd, hrest⟩ := List.cons.inj htext
      subst hd
      cases before with
      | nil => decide
      | cons d before =>
        obtain ⟨rfl, hlast⟩ := List.cons.inj hrest
        exact (escapesNext_cons_cons c before).mpr (h before after hlast)

end Text

open Text

/-! ## The closing quote -/

/-- **The scanner finds no closing quote** exactly if every quote is escaped. -/
theorem splitAtQuote_eq_none_iff {text : List Char} : splitAtQuote text = none ↔ Quoteless text := by
  fun_induction splitAtQuote text with
  | case1 => simp [quoteless_nil]
  | case2 =>
    have hquoteless : Quoteless ['\\'] := by
      intro before after htext
      have hmem : '"' ∈ ['\\'] := htext ▸ List.mem_append_right before List.mem_cons_self
      simp at hmem
    simp [hquoteless]
  | case3 c rest ih => simp [quoteless_cons_cons, ih]
  | case4 rest => simp [not_quoteless_quote]
  | case5 c rest hlast hescaped hquote ih =>
    have hbackslash : c ≠ '\\' := by
      rintro rfl
      cases rest with
      | nil => exact hlast rfl rfl
      | cons d rest => exact hescaped d rest rfl rfl
    simp [quoteless_cons hbackslash hquote, ih]

instance (text : List Char) : Decidable (Quoteless text) :=
  decidable_of_iff (splitAtQuote text = none) splitAtQuote_eq_none_iff

lemma of_splitAtQuote {text raw suffix : List Char} (h : splitAtQuote text = some (raw, suffix)) :
    text = raw ++ '"' :: suffix ∧ ¬ EscapesNext raw ∧ Quoteless raw := by
  fun_induction splitAtQuote text generalizing raw with
  | case1 => cases h
  | case2 => cases h
  | case3 c rest ih =>
    obtain ⟨⟨inner, after⟩, hsplit, hpair⟩ := Option.map_eq_some_iff.mp h
    cases hpair
    obtain ⟨rfl, hnext, hquoteless⟩ := ih hsplit
    exact ⟨rfl, (escapesNext_cons_cons c inner).not.mpr hnext,
      (quoteless_cons_cons c inner).mpr hquoteless⟩
  | case4 rest =>
    cases h
    exact ⟨rfl, not_escapesNext_nil, quoteless_nil⟩
  | case5 c rest hlast hescaped hquote ih =>
    obtain ⟨⟨inner, after⟩, hsplit, hpair⟩ := Option.map_eq_some_iff.mp h
    cases hpair
    obtain ⟨rfl, hnext, hquoteless⟩ := ih hsplit
    have hbackslash : c ≠ '\\' := by
      rintro rfl
      cases inner with
      | nil => exact hescaped _ _ rfl rfl
      | cons d inner => exact hescaped _ _ rfl rfl
    exact ⟨rfl, (escapesNext_cons hbackslash inner).not.mpr hnext,
      (quoteless_cons hbackslash hquote inner).mpr hquoteless⟩

/-- **The scanner splits a text** exactly at a quote that is not escaped, behind quotes that are. -/
theorem splitAtQuote_eq_some_iff {text raw suffix : List Char} :
    splitAtQuote text = some (raw, suffix) ↔
      text = raw ++ '"' :: suffix ∧ ¬ EscapesNext raw ∧ Quoteless raw := by
  refine ⟨of_splitAtQuote, ?_⟩
  rintro ⟨htext, hnext, hquoteless⟩
  cases hsplit : splitAtQuote text with
  | none => exact absurd (splitAtQuote_eq_none_iff.mp hsplit raw suffix htext) hnext
  | some found =>
    obtain ⟨raw', suffix'⟩ := found
    obtain ⟨htext', hnext', hquoteless'⟩ := of_splitAtQuote hsplit
    -- Of two such splits the one with the longer front would have the other's quote in it.
    rcases List.append_eq_append_iff.mp (htext.symm.trans htext') with
      ⟨more, hraw, hrest⟩ | ⟨more, hraw, hrest⟩
    · cases more with
      | nil => simp_all
      | cons c more =>
        obtain ⟨rfl, -⟩ := List.cons.inj hrest
        exact absurd (hquoteless' raw more hraw) hnext
    · cases more with
      | nil => simp_all
      | cons c more =>
        obtain ⟨rfl, -⟩ := List.cons.inj hrest
        exact absurd (hquoteless raw' more hraw) hnext'

/-! ## The format -/

/-- An IRI is written between angle brackets. -/
inductive Iri.Spells : List Char → Iri → Prop
  | brackets {raw text : List Char} (h : Unescapes raw text) :
    Iri.Spells ('<' :: (raw ++ ['>'])) ⟨String.ofList text⟩

/-- What may follow the closing quote of a literal with this lexical form: nothing, a language tag or a
datatype. -/
inductive Literal.Annotates (lexical : String) : List Char → Literal → Prop
  | plain : Annotates lexical [] (.simple lexical)
  | language {tag : List Char} (hne : tag ≠ []) :
    Annotates lexical ('@' :: tag) (.tagged lexical (String.ofList tag))
  | datatype {token : List Char} {iri : Iri} (h : Iri.Spells token iri) :
    Annotates lexical ('^' :: '^' :: token) (.ofDatatype lexical iri)

/-- The texts of the format, with the terms that they spell.  Any text at all may be a label. -/
inductive Term.Spells : List Char → Term → Prop
  | iri {token : List Char} {iri : Iri} (h : Iri.Spells token iri) : Term.Spells token (.iri iri)
  | blank {label : List Char} (hne : label ≠ []) :
    Term.Spells ('_' :: ':' :: label) (.blank ⟨String.ofList label⟩)
  | literal {raw text suffix : List Char} {l : Literal} (hquotes : Quoteless raw)
    (h : Unescapes raw text) (hsuffix : l.Annotates (String.ofList text) suffix) :
    Term.Spells ('"' :: (raw ++ '"' :: suffix)) (.literal l)

/-! ## What is read is in the format -/

lemma enclosed?_eq_some_iff {text inner : List Char} :
    enclosed? text = some inner ↔ text = '<' :: (inner ++ ['>']) := by
  constructor
  · intro h
    unfold enclosed? at h
    split at h
    · rename_i rest
      split at h
      · rename_i hlast
        cases h
        obtain ⟨front, rfl⟩ := List.getLast?_eq_some_iff.mp hlast
        rw [List.dropLast_concat]
      · cases h
    · cases h
  · rintro rfl
    exact enclosed?_append inner

lemma unescapeText_eq_ok_iff {raw : List Char} {plain : String} :
    unescapeText raw = .ok plain ↔ ∃ text, Unescapes raw text ∧ plain = String.ofList text := by
  unfold unescapeText
  cases hread : unescape raw with
  | error fault => simp [← unescape_eq_ok_iff, hread]
  | ok text => simp [← unescape_eq_ok_iff, hread, eq_comm]

theorem Iri.read_eq_ok_iff {token : List Char} {iri : Iri} :
    Iri.read token = .ok iri ↔ Iri.Spells token iri := by
  constructor
  · intro h
    unfold Iri.read at h
    split at h
    · cases h
    · rename_i raw henclosed
      obtain ⟨plain, hplain, rfl⟩ := exists_of_map_eq_ok h
      obtain ⟨text, htext, rfl⟩ := unescapeText_eq_ok_iff.mp hplain
      rw [enclosed?_eq_some_iff.mp henclosed]
      exact .brackets htext
  · rintro ⟨htext⟩
    rw [Iri.read, enclosed?_append]
    simp only [unescapeText_eq_ok_iff.mpr ⟨_, htext, rfl⟩]
    rfl

lemma Literal.annotate_eq_ok_iff {whole suffix : List Char} {lexical : String} {l : Literal} :
    annotate whole lexical suffix = .ok l ↔ l.Annotates lexical suffix := by
  constructor
  · intro h
    unfold annotate at h
    split at h
    · cases h
      exact .plain
    · cases h
      exact .language (List.cons_ne_nil _ _)
    · obtain ⟨iri, hiri, rfl⟩ := exists_of_map_eq_ok h
      exact .datatype (Iri.read_eq_ok_iff.mp hiri)
    · cases h
  · intro h
    cases h with
    | plain => rfl
    | language hne =>
      obtain ⟨c, tag, rfl⟩ := List.exists_cons_of_ne_nil hne
      rfl
    | datatype h =>
      rw [annotate, Iri.read_eq_ok_iff.mpr h]
      rfl

/-- No digit is a backslash. -/
lemma Text.WritesHex.backslash_not_mem {digits : List Char} {n : Nat} (h : WritesHex digits n) :
    '\\' ∉ digits := by
  have hdigit : ∀ v < 16, ¬ IsHexDigit '\\' v := by decide
  obtain ⟨values, hdigits, -⟩ := h
  intro hmem
  obtain ⟨i, hi, hbackslash⟩ := List.mem_iff_getElem.mp hmem
  have hvalue := hdigits.get hi (hdigits.length_eq ▸ hi)
  rw [List.get_eq_getElem, hbackslash] at hvalue
  exact hdigit _ hvalue.1 hvalue

lemma Text.escapesNext_append {front : List Char} (h : '\\' ∉ front) (raw : List Char) :
    EscapesNext (front ++ raw) ↔ EscapesNext raw := by
  induction front with
  | nil => rfl
  | cons c front ih =>
    obtain ⟨hc, hfront⟩ := not_or.mp (List.mem_cons.not.mp h)
    rw [List.cons_append, escapesNext_cons (Ne.symm hc), ih hfront]

/-- A sequence of escapes and other characters has no backslash left to escape what follows. -/
lemma Text.Unescapes.not_escapesNext {raw text : List Char} (h : Unescapes raw text) :
    ¬ EscapesNext raw := by
  induction h with
  | nil => exact not_escapesNext_nil
  | plain hc _ ih => rwa [escapesNext_cons hc]
  | escape htoken _ ih =>
    cases htoken with
    | short h => rwa [List.cons_append, List.cons_append, List.nil_append, escapesNext_cons_cons]
    | four _ h =>
      rwa [List.cons_append, List.cons_append, escapesNext_cons_cons,
        escapesNext_append h.backslash_not_mem]
    | eight _ h =>
      rwa [List.cons_append, List.cons_append, escapesNext_cons_cons,
        escapesNext_append h.backslash_not_mem]

/-- A literal is split at the quote behind its lexical form. -/
lemma Literal.read_quoted {raw : List Char} (hquotes : Quoteless raw) (hnext : ¬ EscapesNext raw)
    (suffix : List Char) : Literal.read ('"' :: (raw ++ '"' :: suffix)) (raw ++ '"' :: suffix) =
      (unescapeText raw).bind fun lexical =>
        annotate ('"' :: (raw ++ '"' :: suffix)) lexical suffix := by
  simp only [Literal.read, splitAtQuote_eq_some_iff.mpr ⟨rfl, hnext, hquotes⟩]
  cases unescapeText raw <;> rfl

theorem Term.read_eq_ok_iff {token : List Char} {t : Term} :
    Term.read token = .ok t ↔ Term.Spells token t := by
  constructor
  · intro h
    unfold Term.read at h
    split at h
    · obtain ⟨iri, hiri, rfl⟩ := exists_of_map_eq_ok h
      exact .iri (Iri.read_eq_ok_iff.mp hiri)
    · cases h
    · rename_i label hne
      cases h
      exact .blank hne
    · obtain ⟨l, hread, rfl⟩ := exists_of_map_eq_ok h
      unfold Literal.read at hread
      split at hread
      · cases hread
      · rename_i raw suffix hsplit
        obtain ⟨rfl, -, hquotes⟩ := splitAtQuote_eq_some_iff.mp hsplit
        split at hread
        · cases hread
        · rename_i lexical hlexical
          obtain ⟨text, htext, rfl⟩ := unescapeText_eq_ok_iff.mp hlexical
          exact .literal hquotes htext (Literal.annotate_eq_ok_iff.mp hread)
    · cases h
  · intro h
    cases h with
    | iri h =>
      have hread := Iri.read_eq_ok_iff.mpr h
      cases h
      rw [Term.read, hread]
      rfl
    | blank hne =>
      obtain ⟨c, label, rfl⟩ := List.exists_cons_of_ne_nil hne
      rfl
    | literal hquotes h hsuffix =>
      rw [Term.read, Literal.read_quoted hquotes h.not_escapesNext,
        unescapeText_eq_ok_iff.mpr ⟨_, h, rfl⟩, Except.bind, Literal.annotate_eq_ok_iff.mpr hsuffix]
      rfl

/-! ## Faults -/

lemma eq_error_of_map_eq_error {ε α β : Type} {f : α → β} {x : Except ε α} {e : ε}
    (h : x.map f = .error e) : x = .error e := by
  cases x with
  | error fault => exact congrArg Except.error (Except.error.inj h)
  | ok a => cases h

/-- What is wrong with a text with escapes is the fault of an escape. -/
lemma exists_of_unescapeText_eq_error {raw : List Char} {e : TermError}
    (h : unescapeText raw = .error e) :
    ∃ fault, unescape raw = .error fault ∧ e = .ofEscape raw fault := by
  unfold unescapeText at h
  split at h
  · cases h
  · rename_i fault hread
    exact ⟨fault, hread, (Except.error.inj h).symm⟩

/-- An IRI has no brackets around it, or an escape between them is at fault. -/
lemma Iri.cases_of_read_eq_error {token : List Char} {e : TermError}
    (h : Iri.read token = .error e) :
    (enclosed? token = none ∧ e = .expectedIri (String.ofList token)) ∨
      ∃ raw fault, token = '<' :: (raw ++ ['>']) ∧ unescape raw = .error fault ∧
        e = .ofEscape raw fault := by
  unfold Iri.read at h
  split at h
  · rename_i hnone
    exact .inl ⟨hnone, (Except.error.inj h).symm⟩
  · rename_i raw henclosed
    obtain ⟨fault, hread, rfl⟩ := exists_of_unescapeText_eq_error (eq_error_of_map_eq_error h)
    exact .inr ⟨raw, fault, enclosed?_eq_some_iff.mp henclosed, hread, rfl⟩

/-- What follows the closing quote is no annotation, or is one with a datatype that is at fault. -/
lemma Literal.cases_of_annotate_eq_error {whole suffix : List Char} {lexical : String}
    {e : TermError} (h : annotate whole lexical suffix = .error e) :
    e = .invalidLiteralSuffix (String.ofList suffix) (String.ofList whole) ∨
      ∃ token, suffix = '^' :: '^' :: token ∧ Iri.read token = .error e := by
  unfold annotate at h
  split at h
  · cases h
  · cases h
  · exact .inr ⟨_, rfl, eq_error_of_map_eq_error h⟩
  · exact .inl (Except.error.inj h).symm

/-- A literal is unterminated just if every quote behind the first one is escaped. -/
lemma Term.read_eq_unterminated_iff {rest : List Char} {w : String} :
    Term.read ('"' :: rest) = .error (.unterminatedLiteral w) ↔
      w = String.ofList ('"' :: rest) ∧ Quoteless rest := by
  constructor
  · intro h
    have hread : Literal.read ('"' :: rest) rest = .error (.unterminatedLiteral w) :=
      eq_error_of_map_eq_error h
    unfold Literal.read at hread
    split at hread
    · rename_i hsplit
      cases hread
      exact ⟨rfl, splitAtQuote_eq_none_iff.mp hsplit⟩
    · -- No fault of the parts of a literal that was split is of this kind.
      split at hread
      · rename_i raw _ _ fault hlexical
        cases hread
        obtain ⟨escape, -, hfault⟩ := exists_of_unescapeText_eq_error hlexical
        cases escape <;> cases hfault
      · rcases Literal.cases_of_annotate_eq_error hread with hsuffix | ⟨token, -, hiri⟩
        · cases hsuffix
        · rcases Iri.cases_of_read_eq_error hiri with ⟨-, hnone⟩ | ⟨raw, escape, -, -, hfault⟩
          · cases hnone
          · cases escape <;> cases hfault
  · rintro ⟨rfl, hquotes⟩
    rw [Term.read, Literal.read, splitAtQuote_eq_none_iff.mpr hquotes]
    rfl

/-- A fault of the lexical form is reported whatever follows the closing quote. -/
lemma Term.read_of_lexical_error {raw : List Char} (hquotes : Quoteless raw)
    (hnext : ¬ EscapesNext raw) {fault : EscapeError} (h : unescape raw = .error fault)
    (suffix : List Char) :
    Term.read ('"' :: (raw ++ '"' :: suffix)) = .error (.ofEscape raw fault) := by
  rw [Term.read, Literal.read_quoted hquotes hnext, unescapeText, h]
  rfl

/-- **The texts that are read as terms are those of the format**, and each is read as the term that it
spells.  Of the texts that begin as literals those are unterminated in which every further quote is
escaped; and a fault of an escape in the lexical form is what is reported, whatever follows it. -/
theorem Term.decode_reads_format :
    (∀ v t, Term.decode v = .ok t ↔ Term.Spells v.toList t) ∧
    (∀ v rest w, v.toList = '"' :: rest →
      (Term.decode v = .error (.unterminatedLiteral w) ↔ w = v ∧ Quoteless rest)) ∧
    ∀ raw, Quoteless raw → ¬ EscapesNext raw → ¬ EscapeValid raw →
      ∃ fault, unescape raw = .error fault ∧ ∀ v suffix, v.toList = '"' :: (raw ++ '"' :: suffix) →
        Term.decode v = .error (.ofEscape raw fault) := by
  refine ⟨fun v t => Term.read_eq_ok_iff, fun v rest w hv => ?_,
    fun raw hquotes hnext hinvalid => ?_⟩
  · rw [Term.decode, hv, Term.read_eq_unterminated_iff, ← hv, String.ofList_toList]
  · cases hread : unescape raw with
    | ok text => exact absurd ⟨text, unescape_eq_ok_iff.mp hread⟩ hinvalid
    | error fault =>
      refine ⟨fault, rfl, fun v suffix hv => ?_⟩
      rw [Term.decode, hv]
      exact Term.read_of_lexical_error hquotes hnext hread suffix

/-- A lexical form of three backslashes, a quote and an escaped letter, with a language tag; one whose
only further quote is escaped; and one that names a surrogate, before a datatype without its bracket. -/
theorem Term.decode_reads_format_quotes :
    let tagged := "\"\\\\\\\"\\u0041\"@en"
    let unterminated := "\"\\\"@en"
    let surrogate := "\\uD800".toList
    Term.Spells tagged.toList (.literal (.tagged "\\\"A" "en")) ∧
      Quoteless "\\\"@en".toList ∧
      Term.decode unterminated = .error (.unterminatedLiteral unterminated) ∧
      Quoteless surrogate ∧ ¬ EscapesNext surrogate ∧ ¬ EscapeValid surrogate ∧
      ∃ fault, Term.decode "\"\\uD800\"^^<x" = .error (.ofEscape surrogate fault) := by
  intro tagged unterminated surrogate
  have htagged : Term.decode tagged = .ok (.literal (.tagged "\\\"A" "en")) := by cbv
  have hquotes : Quoteless "\\\"@en".toList := by decide
  have hsurrogate : Quoteless surrogate := by decide
  have hnext : ¬ EscapesNext surrogate := by decide
  have hinvalid : ¬ EscapeValid surrogate := by
    rintro ⟨text, htext⟩
    have hread : unescape surrogate = .error (.badCodePoint "D800".toList) := by cbv
    rw [unescape_eq_ok_iff.mpr htext] at hread
    cases hread
  obtain ⟨fault, -, hfault⟩ := Term.decode_reads_format.2.2 surrogate hsurrogate hnext hinvalid
  exact ⟨(Term.decode_reads_format.1 _ _).mp htagged, hquotes,
    (Term.decode_reads_format.2.1 unterminated _ _ (by decide)).mpr ⟨rfl, hquotes⟩, hsurrogate, hnext,
    hinvalid, fault, hfault _ "^^<x".toList (by decide)⟩

end QuadStore
