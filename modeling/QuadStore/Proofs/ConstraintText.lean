import Mathlib
import QuadStore.CommandLine.Arguments
import QuadStore.Proofs.QueryLayout

/-!
# Constraints are read back

The text of a constraint is a variable, the sign of a comparison and a term, with or without blanks in
between (`ConstraintText`).  It is taken apart at the first character that any sign begins with.  A term
may well hold such characters, as every IRI does, but a name cannot, so the first of them is where the
sign begins; and since no term begins with an equals sign, the sign that is found there is the whole one
(`Comparison.split_symbol`).

Blanks at both ends of the name are taken off, and here the two notions of a character do not fit.  Of
the characters that a name may have one is a blank, the Ogham space mark (`Grammar.eq_oghamSpace`).  A
name that ends with it is not read back, and neither is one that begins with it unless a question mark
or dollar sign stands before it; every other constraint is (`constraintOf_text_iff`).
-/

namespace QuadStore

/-! ## Trimming -/

namespace Text

variable {text before after : List Char}

lemma trimEnd_eq_rdropWhile (text : List Char) : trimEnd text = text.rdropWhile isBlank := rfl

lemma mem_of_mem_trimEnd {c : Char} (h : c ∈ trimEnd text) : c ∈ text :=
  (List.rdropWhile_prefix isBlank text).subset h

lemma mem_of_mem_trim {c : Char} (h : c ∈ trim text) : c ∈ text :=
  (List.dropWhile_sublist isBlank).subset (mem_of_mem_trimEnd h)

/-- Blanks at the end are taken off. -/
lemma trimEnd_append (h : ∀ c ∈ after, isBlank c = true) (text : List Char) :
    trimEnd (text ++ after) = trimEnd text := by
  rw [trimEnd, List.reverse_append, List.dropWhile_append_of_pos (by simpa using h)]
  rfl

lemma trimEnd_cons {c : Char} (h : isBlank c = false) (text : List Char) :
    trimEnd (c :: text) = c :: trimEnd text := by
  rw [trimEnd_eq_rdropWhile, trimEnd_eq_rdropWhile]
  induction text using List.reverseRecOn with
  | nil => rw [List.rdropWhile_singleton, List.rdropWhile_nil, if_neg (by simp [h])]
  | append_singleton text d ih =>
    rw [← List.cons_append, List.rdropWhile_concat, List.rdropWhile_concat, ih]
    split <;> rfl

/-- A text that does not end with a blank is left as it is, and no other. -/
lemma trimEnd_eq_self_iff : trimEnd text = text ↔ ∀ c ∈ text.getLast?, isBlank c = false := by
  rw [trimEnd_eq_rdropWhile, List.rdropWhile_eq_self_iff]
  cases text using List.reverseRecOn with
  | nil => simp
  | append_singleton text c => simp

/-- A text that neither begins nor ends with a blank is left as it is, and no other. -/
lemma trim_eq_self_iff : trim text = text ↔
    (∀ c ∈ text.head?, isBlank c = false) ∧ ∀ c ∈ text.getLast?, isBlank c = false := by
  have hhead : text.dropWhile isBlank = text ↔ ∀ c ∈ text.head?, isBlank c = false := by
    cases text with
    | nil => simp
    | cons c text => simp [List.dropWhile_eq_self_iff]
  rw [← hhead, ← trimEnd_eq_self_iff]
  constructor
  · intro h
    have hsublist := List.dropWhile_sublist isBlank (l := text)
    have hprefix : trim text <+: text.dropWhile isBlank := List.rdropWhile_prefix isBlank _
    -- Nothing was taken off at all, so nothing was taken off in front.
    have hdrop : text.dropWhile isBlank = text := by
      apply hsublist.eq_of_length_le
      have hlength := hprefix.length_le
      rwa [h] at hlength
    refine ⟨hdrop, ?_⟩
    rwa [trim, hdrop] at h
  · rintro ⟨hdrop, hend⟩
    rw [trim, hdrop, hend]

/-- **Blanks around a text are taken off** before anything else. -/
theorem trim_between (hbefore : ∀ c ∈ before, isBlank c = true)
    (hafter : ∀ c ∈ after, isBlank c = true) (text : List Char) :
    trim (before ++ (text ++ after)) = trim text := by
  rw [trim, List.dropWhile_append_of_pos hbefore, List.dropWhile_append]
  split
  · rename_i hempty
    have hnone : after.dropWhile isBlank = [] := List.dropWhile_eq_nil_iff.mpr (by simpa using hafter)
    rw [hnone, trim, List.isEmpty_iff.mp hempty]
  · exact trimEnd_append hafter _

end Text

/-! ## Signs -/

namespace Comparison

/-- The characters that signs begin with. -/
def BeginsSign (c : Char) : Prop := c = '<' ∨ c = '>' ∨ c = '='

/-- A sign is found at the front of a text, if the text behind it does not continue it. -/
lemma ofLeading?_symbol (comparison : Comparison) {rest : List Char} (hrest : rest.head? ≠ some '=') :
    ofLeading? (comparison.symbol.toList ++ rest) = some (comparison, rest) := by
  cases rest with
  | nil => cases comparison <;> rfl
  | cons c rest =>
    have hc : c ≠ '=' := fun h => hrest (congrArg some h)
    cases comparison with
    | equal => rfl
    | lessOrEqual => rfl
    | greaterOrEqual => rfl
    | less => simp [symbol, ofLeading?, hc]
    | greater => simp [symbol, ofLeading?, hc]

/-- **A text is taken apart where the first sign begins**, and the whole sign is taken. -/
theorem split_symbol (comparison : Comparison) {front rest : List Char}
    (hfront : ∀ c ∈ front, ¬ BeginsSign c) (hrest : rest.head? ≠ some '=') :
    split (front ++ (comparison.symbol.toList ++ rest)) = some (front, comparison, rest) := by
  induction front with
  | nil =>
    have hsign := ofLeading?_symbol comparison hrest
    obtain ⟨c, more, hcons⟩ : ∃ c more, comparison.symbol.toList ++ rest = c :: more := by
      cases comparison <;> exact ⟨_, _, rfl⟩
    rw [hcons] at hsign
    rw [List.nil_append, hcons, split, hsign]
  | cons c front ih =>
    obtain ⟨hc, hmore⟩ := List.forall_mem_cons.mp hfront
    simp only [BeginsSign, not_or] at hc
    have hnone : ofLeading? (c :: (front ++ (comparison.symbol.toList ++ rest))) = none := by
      simp [ofLeading?, hc]
    rw [List.cons_append, split, hnone, ih hmore]
    rfl

end Comparison

/-! ## Names -/

namespace Grammar

/-- The one blank that a name may hold. -/
def oghamSpace : Char := '\u1680'

/-- The characters that a name may have at one place or another. -/
def IsNamePart (c : Char) : Prop := beginsName c = true ∨ continuesName c = true

lemma isNamePart_of_mem {name : List Char} (h : isVariableName name = true) {c : Char}
    (hc : c ∈ name) : IsNamePart c := by
  cases name with
  | nil => cases hc
  | cons d rest =>
    simp only [isVariableName, Bool.and_eq_true, List.all_eq_true] at h
    rcases List.mem_cons.mp hc with rfl | hrest
    · exact .inl h.1
    · exact .inr (h.2 c hrest)

/-- **The only blank in names is the Ogham space mark.** -/
theorem eq_oghamSpace {c : Char} (hname : IsNamePart c) (hblank : Text.isBlank c = true) :
    c = oghamSpace := by
  have heq (d : Char) : c = d ↔ c.toNat = d.toNat := Char.toNat_inj.symm
  have hle (d e : Char) : d ≤ e ↔ d.toNat ≤ e.toNat := UInt32.le_iff_toNat_le
  simp only [IsNamePart, beginsName, continuesName, isNameLetter, Text.isLetter, Text.isDigit, hle,
    heq, Bool.or_eq_true, Bool.and_eq_true, beq_iff_eq, decide_eq_true_eq, Char.reduceToNat] at hname
  simp only [Text.isBlank, Bool.or_eq_true, Bool.and_eq_true, beq_iff_eq, decide_eq_true_eq] at hblank
  rw [heq]
  change c.toNat = 0x1680
  omega

lemma not_beginsSign {c : Char} (h : IsNamePart c) : ¬ Comparison.BeginsSign c := by
  rintro (rfl | rfl | rfl) <;> exact absurd h (by simp [IsNamePart]; decide)

lemma isSigil_eq_false {c : Char} (h : IsNamePart c) : CommandLine.isSigil c = false := by
  by_contra hsigil
  simp only [CommandLine.isSigil, Bool.not_eq_false, Bool.or_eq_true, beq_iff_eq] at hsigil
  rcases hsigil with rfl | rfl <;> exact absurd h (by simp [IsNamePart]; decide)

end Grammar

/-! ## Terms between gaps -/

open Grammar

variable {gap last : List Char}

/-- **A term is read whatever gaps stand around it.** -/
theorem parseTerm_between {term : Term} (hterm : term.Clean) (hgap : Gap gap) (hlast : Gap last) :
    parseTerm (gap ++ (term.written ++ last)) = .ok term := by
  have hslot : (Slot.term term).Clean := hterm
  have hnil : EndsToken [] := by simp [EndsToken]
  have hend : EndsToken last := by simpa using hlast.endsToken hnil
  have hsingle : single? (gap ++ (term.written ++ last)) = some [(Slot.term term).token] := by
    rw [← written_term, single?, hgap.skip_append, skip_slot, slot?_written hslot hend,
      Option.bind_eq_bind, Option.bind_some]
    simp [hlast.skip_eq_nil]
  have hread : readTerm (gap ++ (term.written ++ last)) = .ok term := by
    rw [readTerm, hsingle]
    change (Slot.term term).token.read >>= concrete = .ok term
    rw [read_token hslot]
    rfl
  rw [parseTerm, hread]
  rfl

/-- Neither a gap nor a term begins with an equals sign. -/
lemma head?_gap_term_ne (hgap : Gap gap) (term : Term) (last : List Char) :
    (gap ++ (term.written ++ last)).head? ≠ some '=' := by
  cases hgap with
  | nil =>
    obtain ⟨c, inner, hwritten, hc⟩ := exists_written_eq_cons (.term term)
    rw [written_term] at hwritten
    rcases hc with rfl | rfl | rfl | rfl <;> simp [hwritten]
  | blank hc _ => rcases isSpace_cases hc with rfl | rfl | rfl | rfl <;> simp
  | comment _ _ _ => simp

/-! ## Constraints -/

namespace CommandLine

open Text

/-- The texts of a constraint: the name of its variable behind a sigil or none, the sign of its
comparison and its value, with blanks around the name and gaps around the value. -/
inductive ConstraintText (constraint : Constraint) (sigil : Option Char) : List Char → Prop
  | layout {before after gap last : List Char} (hbefore : ∀ c ∈ before, isBlank c = true)
    (hsigil : ∀ c ∈ sigil, isSigil c = true) (hafter : ∀ c ∈ after, isBlank c = true)
    (hgap : Gap gap) (hlast : Gap last) :
    ConstraintText constraint sigil
      (before ++ ((sigil.toList ++ constraint.var.name.toList) ++ after) ++
        (constraint.comparison.symbol.toList ++ (gap ++ (constraint.value.written ++ last))))

/-- A constraint is printed with a question mark and a space on either side of the sign. -/
lemma constraintText_display (constraint : Constraint) :
    ConstraintText constraint (some '?') constraint.display.toList := by
  have hspace : Gap [' '] := .blank rfl .nil
  have htext : constraint.display.toList =
      [] ++ (((some '?').toList ++ constraint.var.name.toList) ++ [' ']) ++
        (constraint.comparison.symbol.toList ++ ([' '] ++ (constraint.value.written ++ []))) := by
    simp [Constraint.display, Variable.display, Term.encode]
  rw [htext]
  exact .layout (by simp) (by simp [isSigil]) (by simp [isBlank]) hspace .nil

/-- What is left of a name behind a sigil or none, when the blanks are taken off. -/
def nameRead (sigil : Option Char) (name : List Char) : List Char :=
  if sigil.isSome then trimEnd name else trim name

variable {sigil : Option Char} {name : List Char}

lemma mem_of_mem_nameRead {c : Char} (h : c ∈ nameRead sigil name) : c ∈ name := by
  unfold nameRead at h
  split at h
  · exact mem_of_mem_trimEnd h
  · exact mem_of_mem_trim h

lemma dropWhile_isSigil {text : List Char} (h : ∀ c ∈ text, IsNamePart c) :
    text.dropWhile isSigil = text := by
  cases text with
  | nil => rfl
  | cons c rest => rw [List.dropWhile_cons_of_neg (by simp [isSigil_eq_false (h c (by simp))])]

/-- The sigil and the blanks are taken off a name. -/
lemma dropWhile_isSigil_trim (hname : ∀ c ∈ name, IsNamePart c)
    (hsigil : ∀ c ∈ sigil, isSigil c = true) :
    (trim (sigil.toList ++ name)).dropWhile isSigil = nameRead sigil name := by
  have hread : (nameRead sigil name).dropWhile isSigil = nameRead sigil name :=
    dropWhile_isSigil fun c hc => hname c (mem_of_mem_nameRead hc)
  cases sigil with
  | none => exact hread
  | some mark =>
    have hmark : isSigil mark = true := hsigil mark rfl
    have hblank : isBlank mark = false := by
      simp only [isSigil, Bool.or_eq_true, beq_iff_eq] at hmark
      rcases hmark with rfl | rfl <;> rfl
    have htrim : trim (mark :: name) = mark :: trimEnd name := by
      rw [trim, List.dropWhile_cons_of_neg (by simp [hblank]), trimEnd_cons hblank]
    exact (congrArg _ htrim).trans ((List.dropWhile_cons_of_pos hmark).trans hread)

/-- **A name is read whole if no Ogham space mark is taken off it** with the blanks: not at the end,
and not in front where no sigil is. -/
lemma nameRead_eq_self_iff (hname : ∀ c ∈ name, IsNamePart c) :
    nameRead sigil name = name ↔
      name.getLast? ≠ some oghamSpace ∧ (sigil = none → name.head? ≠ some oghamSpace) := by
  have hblank (end? : Option Char) (hend : ∀ c ∈ end?, c ∈ name) :
      (∀ c ∈ end?, isBlank c = false) ↔ end? ≠ some oghamSpace := by
    cases end? with
    | none => simp
    | some c =>
      have hc : isBlank c = true ↔ c = oghamSpace :=
        ⟨eq_oghamSpace (hname c (hend c rfl)), by rintro rfl; rfl⟩
      simpa using (not_congr hc)
  have hlast := hblank name.getLast? fun c hc => List.mem_of_getLast? hc
  have hfirst := hblank name.head? fun c hc => List.mem_of_head? hc
  cases sigil with
  | none =>
    rw [nameRead, if_neg (by simp), trim_eq_self_iff, hlast, hfirst, and_comm]
    simp
  | some mark =>
    rw [nameRead, if_pos (by simp), trimEnd_eq_self_iff, hlast]
    simp

/-- No sign begins before the sign of a constraint. -/
lemma not_beginsSign_front {before after : List Char} (hbefore : ∀ c ∈ before, isBlank c = true)
    (hsigil : ∀ c ∈ sigil, isSigil c = true) (hname : ∀ c ∈ name, IsNamePart c)
    (hafter : ∀ c ∈ after, isBlank c = true) :
    ∀ c ∈ before ++ ((sigil.toList ++ name) ++ after), ¬ Comparison.BeginsSign c := by
  have hblank {c : Char} (h : isBlank c = true) : ¬ Comparison.BeginsSign c := by
    rintro (rfl | rfl | rfl) <;> cases h
  have hmark {c : Char} (h : isSigil c = true) : ¬ Comparison.BeginsSign c := by
    rintro (rfl | rfl | rfl) <;> cases h
  intro c hc
  simp only [List.mem_append, Option.mem_toList] at hc
  rcases hc with hc | (hc | hc) | hc
  · exact hblank (hbefore c hc)
  · exact hmark (hsigil c hc)
  · exact not_beginsSign (hname c hc)
  · exact hblank (hafter c hc)

/-- **What is read from the text of a constraint** is the constraint itself, but for the blanks that
are taken off its name. -/
lemma constraintOf_layout {constraint : Constraint} {text : String}
    (hname : ∀ c ∈ constraint.var.name.toList, IsNamePart c) (hvalue : constraint.value.Clean)
    (htext : ConstraintText constraint sigil text.toList) :
    constraintOf text =
      let name := nameRead sigil constraint.var.name.toList
      if isVariableName name then
        .ok ⟨⟨String.ofList name⟩, constraint.comparison, constraint.value⟩
      else .error (.name (String.ofList name)) := by
  obtain ⟨chars, hchars⟩ : ∃ chars, text.toList = chars := ⟨_, rfl⟩
  rw [hchars] at htext
  cases htext with
  | @layout _ _ _ last hbefore hsigil hafter hgap hlast =>
    have hfront := not_beginsSign_front hbefore hsigil hname hafter
    have hsign := Comparison.split_symbol constraint.comparison hfront
      (head?_gap_term_ne hgap constraint.value last)
    rw [constraintOf, hchars, hsign]
    simp only [trim_between hbefore hafter, dropWhile_isSigil_trim hname hsigil,
      parseTerm_between hvalue hgap hlast]

/-- A constraint is read back from a text of it if its name is read whole, and only then. -/
lemma constraintOf_eq_ok_iff {constraint : Constraint} {text : String}
    (hname : isVariableName constraint.var.name.toList = true) (hvalue : constraint.value.Clean)
    (htext : ConstraintText constraint sigil text.toList) :
    constraintOf text = .ok constraint ↔
      nameRead sigil constraint.var.name.toList = constraint.var.name.toList := by
  rw [constraintOf_layout (fun c hc => isNamePart_of_mem hname hc) hvalue htext]
  constructor
  · intro hread
    dsimp only at hread
    split at hread
    · have hsame := congrArg (fun constraint : Constraint => constraint.var.name.toList)
        (Except.ok.inj hread)
      simpa using hsame
    · cases hread
  · intro hread
    dsimp only
    rw [hread, if_pos hname, String.ofList_toList]

/-- **A constraint is read back from its text**, as it is printed or in any other layout, whichever
sigil stands before its name and whatever its value holds, unless its name loses an Ogham space mark:
at the end, or in front where there is no sigil. -/
theorem constraintOf_text_iff {constraint : Constraint}
    (hname : isVariableName constraint.var.name.toList = true) (hvalue : constraint.value.Clean) :
    (constraintOf constraint.display = .ok constraint ↔
      constraint.var.name.toList.getLast? ≠ some oghamSpace) ∧
    ∀ (sigil : Option Char) (text : String), ConstraintText constraint sigil text.toList →
      (constraintOf text = .ok constraint ↔
        constraint.var.name.toList.getLast? ≠ some oghamSpace ∧
          (sigil = none → constraint.var.name.toList.head? ≠ some oghamSpace)) := by
  have hpart : ∀ c ∈ constraint.var.name.toList, IsNamePart c := fun c hc =>
    isNamePart_of_mem hname hc
  constructor
  · rw [constraintOf_eq_ok_iff hname hvalue (constraintText_display constraint),
      nameRead_eq_self_iff hpart]
    simp
  · intro sigil text htext
    rw [constraintOf_eq_ok_iff hname hvalue htext, nameRead_eq_self_iff hpart]

/-- A value that holds all three characters that signs begin with, read back as it is printed, without
the spaces behind a dollar sign, and without a sigil over several lines with a comment. -/
theorem constraintOf_text_iff_signs :
    let constraint : Constraint :=
      ⟨⟨"x_1"⟩, .greater, .literal (.ofDatatype "a<b>=\"c\n" ⟨"http://x/t?a=<b"⟩)⟩
    let value := "\"a<b>=\\\"c\\n\"^^<http://x/t?a=<b>"
    isVariableName constraint.var.name.toList = true ∧ constraint.value.Clean ∧
      constraintOf constraint.display = .ok constraint ∧
      constraintOf ("$x_1>" ++ value) = .ok constraint ∧
      constraintOf ("\n\u2003x_1\t>#=\n" ++ value ++ "#\r") = .ok constraint := by
  intro constraint value
  have hname : isVariableName constraint.var.name.toList = true := by decide
  have hvalue : constraint.value.Clean :=
    ⟨Term.grammatical_ofDatatype _ _, by decide +kernel⟩
  obtain ⟨hdisplay, hread⟩ := constraintOf_text_iff hname hvalue
  have hfirst : constraint.var.name.toList.head? ≠ some oghamSpace := by decide
  have hlast : constraint.var.name.toList.getLast? ≠ some oghamSpace := by decide
  have hblank : ∀ c ∈ ['\n', '\u2003'], isBlank c = true := by simp [isBlank]
  have htab : ∀ c ∈ ['\t'], isBlank c = true := by simp [isBlank]
  have hcomment : Gap ('#' :: (['='] ++ '\n' :: [])) := .comment (by simp [isLineEnd]) rfl .nil
  have hend : Gap ('#' :: ([] ++ '\r' :: [])) := .comment (by simp) rfl .nil
  obtain ⟨_, hdollar, hsame⟩ : ∃ laid, ConstraintText constraint (some '$') laid ∧
      ("$x_1>" ++ value).toList = laid :=
    ⟨_, @ConstraintText.layout _ _ [] [] _ _ (by simp) (by simp [isSigil]) (by simp) .nil .nil,
      by decide +kernel⟩
  rw [← hsame] at hdollar
  obtain ⟨_, hlines, hsame⟩ : ∃ laid, ConstraintText constraint none laid ∧
      ("\n\u2003x_1\t>#=\n" ++ value ++ "#\r").toList = laid :=
    ⟨_, .layout hblank (by simp) htab hcomment hend, by decide +kernel⟩
  rw [← hsame] at hlines
  exact ⟨hname, hvalue, hdisplay.mpr hlast, (hread _ _ hdollar).mpr ⟨hlast, by simp⟩,
    (hread _ _ hlines).mpr ⟨hlast, fun _ => hfirst⟩⟩

/-- A name that ends with an Ogham space mark loses it. -/
theorem constraintOf_display_loses_oghamSpace :
    let constraint : Constraint := ⟨⟨"x\u1680"⟩, .equal, .iri ⟨"http://x/o"⟩⟩
    isVariableName constraint.var.name.toList = true ∧ constraint.value.Clean ∧
      constraintOf constraint.display = .ok { constraint with var := ⟨"x"⟩ } ∧
      constraintOf constraint.display ≠ .ok constraint := by
  intro constraint
  have hread : constraintOf constraint.display = .ok { constraint with var := ⟨"x"⟩ } := by
    decide +kernel
  refine ⟨by decide, ⟨trivial, by decide +kernel⟩, hread, ?_⟩
  rw [hread]
  decide

end CommandLine

end QuadStore
