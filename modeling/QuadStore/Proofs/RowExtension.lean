import QuadStore.Join
import Mathlib.Data.List.Basic
import Mathlib.Data.List.Nodup
import Mathlib.Tactic.Lemma

/-!
# Extending a row by a statement

A row is a list of values of variables.  A statement that a pattern may match says what the
pattern's variables are, and the row is extended by the values of those that it leaves open, each
once (`extendRow`).

The extension is compared with what is meant by it: the row and all that the statement says, taken
together.  The row can be extended exactly if the two agree, no variable being said to be two things
(`Functional`), and then the extended row says just what they say together (`extendRow_spec`).  Only
the agreement of the statement with the row is assumed, which is what a source is asked for.
-/

namespace QuadStore

/-! ## What values say -/

/-- No variable has two values. -/
def Functional (values : Assignments) : Prop := ∀ x ∈ values, ∀ y ∈ values, x.1 = y.1 → x.2 = y.2

instance (values : Assignments) : Decidable (Functional values) :=
  inferInstanceAs (Decidable (∀ x ∈ values, ∀ y ∈ values, x.1 = y.1 → x.2 = y.2))

/-- Each variable stands once. -/
def Distinct (values : Assignments) : Prop := (values.map Prod.fst).Nodup

variable {values more : Assignments} {v : Variable} {term : Term}

lemma mem_of_lookup (h : values.lookup v = some term) : (v, term) ∈ values := by
  obtain ⟨front, rest, rfl, -⟩ := List.lookup_eq_some_iff.mp h
  exact List.mem_append_right _ List.mem_cons_self

lemma notMem_of_lookup (h : values.lookup v = none) : (v, term) ∉ values := by
  intro hmem
  have hne := List.lookup_eq_none_iff.mp h (v, term) hmem
  simp at hne

lemma lookup_isSome_of_mem (h : (v, term) ∈ values) : (values.lookup v).isSome := by
  cases hv : values.lookup v with
  | none => exact absurd h (notMem_of_lookup hv)
  | some other => rfl

lemma lookup_of_mem (hvalues : Functional values) (h : (v, term) ∈ values) :
    values.lookup v = some term := by
  obtain ⟨other, hother⟩ := Option.isSome_iff_exists.mp (lookup_isSome_of_mem h)
  have hterm : other = term := hvalues _ (mem_of_lookup hother) _ h rfl
  rw [hother, hterm]

/-- What values say is a matter of which they are, not of their order or repetition. -/
lemma lookup_congr (hvalues : Functional values) (h : ∀ x, x ∈ values ↔ x ∈ more) (v : Variable) :
    values.lookup v = more.lookup v := by
  have hmore : Functional more := fun x hx y hy =>
    hvalues x ((h x).mpr hx) y ((h y).mpr hy)
  cases hv : values.lookup v with
  | none =>
    cases hw : more.lookup v with
    | none => rfl
    | some term => exact absurd ((h _).mpr (mem_of_lookup hw)) (notMem_of_lookup hv)
  | some term => exact (lookup_of_mem hmore ((h _).mp (mem_of_lookup hv))).symm

lemma functional_congr (h : ∀ x, x ∈ values ↔ x ∈ more) : Functional values ↔ Functional more := by
  unfold Functional
  simp only [h]

lemma functional_of_subset (h : ∀ x ∈ values, x ∈ more) (hmore : Functional more) :
    Functional values := fun x hx y hy => hmore x (h x hx) y (h y hy)

lemma Distinct.functional (h : Distinct values) : Functional values := by
  intro x hx y hy hxy
  exact congrArg Prod.snd (List.inj_on_of_nodup_map h hx hy hxy)

lemma distinct_nil : Distinct [] := List.nodup_nil

/-- Values of new variables may be put behind others. -/
lemma Distinct.append (h : Distinct values) (hmore : Distinct more)
    (hnew : ∀ x ∈ more, values.lookup x.1 = none) : Distinct (values ++ more) := by
  unfold Distinct
  rw [List.map_append, List.nodup_append]
  refine ⟨h, hmore, fun v hv w hw => ?_⟩
  rintro rfl
  obtain ⟨x, hx, rfl⟩ := List.mem_map.mp hw
  obtain ⟨⟨v, old⟩, hold, rfl⟩ := List.mem_map.mp hv
  exact notMem_of_lookup (hnew x hx) hold

/-! ## What a statement says -/

/-- The values that a statement gives to the variables of some slots. -/
def slotValues (slots : List (Position × Slot)) (triple : Triple) : Assignments :=
  slots.filterMap fun (position, slot) => slot.var?.map (·, triple.at position)

/-- The values that a statement gives to the variables of a pattern. -/
def TriplePattern.valuesIn (pattern : TriplePattern) (triple : Triple) : Assignments :=
  slotValues pattern.slots triple

lemma mem_slotValues {slots : List (Position × Slot)} {triple : Triple} :
    (v, term) ∈ slotValues slots triple ↔
      ∃ position, (position, Slot.var v) ∈ slots ∧ triple.at position = term := by
  unfold slotValues
  rw [List.mem_filterMap]
  constructor
  · rintro ⟨⟨position, term' | v'⟩, hslot, hvalue⟩
    · cases hvalue
    · cases hvalue
      exact ⟨position, hslot, rfl⟩
  · rintro ⟨position, hslot, rfl⟩
    exact ⟨(position, .var v), hslot, rfl⟩

lemma mem_foldl_distinct (list seen : List Variable) :
    v ∈ list.foldl (fun seen v => if v ∈ seen then seen else seen ++ [v]) seen ↔
      v ∈ seen ∨ v ∈ list := by
  induction list generalizing seen with
  | nil => simp
  | cons w list ih =>
    rw [List.foldl_cons, ih, List.mem_cons]
    by_cases hw : w ∈ seen
    · rw [if_pos hw]
      constructor
      · rintro (hseen | hlist)
        · exact .inl hseen
        · exact .inr (.inr hlist)
      · rintro (hseen | rfl | hlist)
        · exact .inl hseen
        · exact .inl hw
        · exact .inr hlist
    · rw [if_neg hw, List.mem_append, List.mem_singleton, or_assoc]

/-- The variables of a pattern are those of its slots. -/
lemma TriplePattern.mem_vars {pattern : TriplePattern} :
    v ∈ pattern.vars ↔ ∃ position, (position, Slot.var v) ∈ pattern.slots := by
  rw [vars, mem_foldl_distinct, occurrences, List.mem_filterMap]
  constructor
  · rintro (hnil | ⟨⟨position, term | w⟩, hslot, hv⟩)
    · cases hnil
    · cases hv
    · cases hv
      exact ⟨position, hslot⟩
  · rintro ⟨position, hslot⟩
    exact .inr ⟨_, hslot, rfl⟩

/-! ## Collecting the open values -/

/-- The values of slots that a row leaves open. -/
def openValues (isBound : Variable → Bool) (slots : List (Position × Slot)) (triple : Triple) :
    Assignments :=
  (slotValues slots triple).filter fun x => !isBound x.1

section

variable {isBound : Variable → Bool} {triple : Triple} {slots : List (Position × Slot)}

lemma openValues_bound (position : Position) (hv : isBound v = true) :
    openValues isBound ((position, .var v) :: slots) triple =
      openValues isBound slots triple :=
  List.filter_cons_of_neg (by simp [hv])

lemma openValues_open (position : Position) (hv : isBound v = false) :
    openValues isBound ((position, .var v) :: slots) triple =
      (v, triple.at position) :: openValues isBound slots triple :=
  List.filter_cons_of_pos (by simp [hv])

/-- How a slot of a variable is passed: the value is there already, or the row has one, or it is put
behind the others. -/
lemma collectValues_var_cases {found : Assignments} {position : Position}
    (hopen : ∀ x ∈ values, isBound x.1 = false)
    (h : collectValues isBound triple ((position, .var v) :: slots) values = some found) :
    (isBound v = false ∧ (v, triple.at position) ∈ values ∧
        collectValues isBound triple slots values = some found) ∨
      (isBound v = true ∧ collectValues isBound triple slots values = some found) ∨
      (isBound v = false ∧ values.lookup v = none ∧
        collectValues isBound triple slots (values ++ [(v, triple.at position)]) = some found) := by
  rw [collectValues] at h
  cases hv : values.lookup v with
  | some earlier =>
    rw [hv] at h
    simp only at h
    split at h
    · rename_i hearlier
      subst hearlier
      have hmem := mem_of_lookup hv
      exact .inl ⟨hopen _ hmem, hmem, h⟩
    · cases h
  | none =>
    rw [hv] at h
    simp only at h
    split at h
    · rename_i hbound
      exact .inr (.inl ⟨hbound, h⟩)
    · rename_i hbound
      exact .inr (.inr ⟨by simpa using hbound, rfl, h⟩)

/-- **What is collected**: the values found before and those of the open variables, each variable
once. -/
lemma collectValues_some {found : Assignments} (hvalues : Distinct values)
    (hopen : ∀ x ∈ values, isBound x.1 = false)
    (h : collectValues isBound triple slots values = some found) :
    Distinct found ∧ ∀ x, x ∈ found ↔ x ∈ values ∨ x ∈ openValues isBound slots triple := by
  induction slots generalizing values with
  | nil =>
    cases h
    exact ⟨hvalues, fun x => by simp [openValues, slotValues]⟩
  | cons slot slots ih =>
    obtain ⟨position, term | v⟩ := slot
    · exact ih hvalues hopen h
    · obtain ⟨hbound, hmem, h⟩ | ⟨hbound, h⟩ | ⟨hbound, hv, h⟩ := collectValues_var_cases hopen h
      · obtain ⟨hdistinct, hfound⟩ := ih hvalues hopen h
        refine ⟨hdistinct, fun x => ?_⟩
        rw [hfound, openValues_open position hbound, List.mem_cons]
        constructor
        · tauto
        · rintro (hx | rfl | hx)
          · exact .inl hx
          · exact .inl hmem
          · exact .inr hx
      · rw [openValues_bound position hbound]
        exact ih hvalues hopen h
      · have hdistinct : Distinct (values ++ [(v, triple.at position)]) :=
          hvalues.append (List.nodup_singleton v) (List.forall_mem_singleton.mpr hv)
        have hopen' : ∀ x ∈ values ++ [(v, triple.at position)], isBound x.1 = false :=
          List.forall_mem_append.mpr ⟨hopen, List.forall_mem_singleton.mpr hbound⟩
        obtain ⟨hfound, hmem⟩ := ih hdistinct hopen' h
        refine ⟨hfound, fun x => ?_⟩
        rw [hmem, openValues_open position hbound, List.mem_append, List.mem_singleton,
          List.mem_cons, or_assoc]

/-- What is collected is in the order of the slots: behind the values found before, each value of an
open variable stands where it is said first. -/
lemma collectValues_eq {found : Assignments} (hopen : ∀ x ∈ values, isBound x.1 = false)
    (h : collectValues isBound triple slots values = some found) :
    found = values ++ ((openValues isBound slots triple).filter (· ∉ values)).eraseDups := by
  induction slots generalizing values with
  | nil =>
    cases h
    simp [openValues, slotValues]
  | cons slot slots ih =>
    obtain ⟨position, term | v⟩ := slot
    · exact ih hopen h
    · obtain ⟨hbound, hmem, h⟩ | ⟨hbound, h⟩ | ⟨hbound, hv, h⟩ := collectValues_var_cases hopen h
      · rw [openValues_open position hbound, List.filter_cons_of_neg (by simpa using hmem)]
        exact ih hopen h
      · rw [openValues_bound position hbound]
        exact ih hopen h
      · have hnew : (v, triple.at position) ∉ values := notMem_of_lookup hv
        have hopen' : ∀ x ∈ values ++ [(v, triple.at position)], isBound x.1 = false :=
          List.forall_mem_append.mpr ⟨hopen, List.forall_mem_singleton.mpr hbound⟩
        have hlater : ∀ x, decide (x ∉ values ++ [(v, triple.at position)]) =
            (!(x == (v, triple.at position)) && decide (x ∉ values)) := by
          intro x
          rw [Bool.eq_iff_iff]
          simp only [decide_eq_true_eq, List.mem_append, List.mem_singleton, Bool.and_eq_true,
            Bool.not_eq_true', beq_eq_false_iff_ne]
          tauto
        rw [ih hopen' h, openValues_open position hbound,
          List.filter_cons_of_pos (by simpa using hnew), List.eraseDups_cons, List.filter_filter,
          List.append_assoc, List.singleton_append]
        simp only [hlater]

/-- From nothing, only values of open variables are collected. -/
lemma isOpen_of_collectValues {found : Assignments}
    (h : collectValues isBound triple slots [] = some found) (hmem : (v, term) ∈ found) :
    isBound v = false := by
  have hfound := (collectValues_some distinct_nil (by simp) h).2 (v, term)
  simp only [List.not_mem_nil, false_or] at hfound
  simpa using (List.mem_filter.mp (hfound.mp hmem)).2

/-- Values that say no variable to be two things are all collected. -/
lemma exists_collectValues (hopen : ∀ x ∈ values, isBound x.1 = false)
    (h : Functional (values ++ openValues isBound slots triple)) :
    ∃ found, collectValues isBound triple slots values = some found := by
  induction slots generalizing values with
  | nil => exact ⟨values, rfl⟩
  | cons slot slots ih =>
    obtain ⟨position, term | v⟩ := slot
    · exact ih hopen h
    · rw [collectValues]
      cases hv : values.lookup v with
      | some earlier =>
        have hmem := mem_of_lookup hv
        rw [openValues_open position (hopen _ hmem)] at h
        have hearlier : earlier = triple.at position :=
          h _ (List.mem_append_left _ hmem) _ (List.mem_append_right _ List.mem_cons_self) rfl
        have hrest : Functional (values ++ openValues isBound slots triple) :=
          functional_of_subset (by simp; tauto) h
        simp only [hearlier, if_true]
        exact ih hopen hrest
      | none =>
        by_cases hbound : isBound v = true
        · rw [openValues_bound position hbound] at h
          simp only [hbound, if_true]
          exact ih hopen h
        · rw [Bool.not_eq_true] at hbound
          rw [openValues_open position hbound, List.append_cons] at h
          simp only [hbound, Bool.false_eq_true, if_false]
          exact ih (List.forall_mem_append.mpr ⟨hopen, List.forall_mem_singleton.mpr hbound⟩) h

end

/-! ## Rows -/

/-- The row that a statement makes of another one for a pattern, if it can. -/
def extendRow (pattern : TriplePattern) (triple : Triple) (row : Assignments) :
    Option Assignments :=
  (collectValues (fun v => (row.lookup v).isSome) triple pattern.slots []).map (row ++ ·)

/-- The statement says of the variables of a row what the row says. -/
def AgreesWith (row said : Assignments) : Prop :=
  ∀ v term, (v, term) ∈ said → ∀ value, row.lookup v = some value → value = term

section

variable {pattern : TriplePattern} {triple : Triple} {row : Assignments}

/-- With a statement that agrees with the row, the open values are all that it adds. -/
lemma mem_row_or_open (hagrees : AgreesWith row (pattern.valuesIn triple))
    (x : Variable × Term) :
    x ∈ row ∨ x ∈ openValues (fun v => (row.lookup v).isSome) pattern.slots triple ↔
      x ∈ row ++ pattern.valuesIn triple := by
  obtain ⟨v, term⟩ := x
  rw [List.mem_append, openValues, List.mem_filter]
  constructor
  · rintro (hrow | ⟨hsaid, -⟩)
    · exact .inl hrow
    · exact .inr hsaid
  · rintro (hrow | hsaid)
    · exact .inl hrow
    · cases hv : row.lookup v with
      | none => exact .inr ⟨hsaid, by simp⟩
      | some value =>
        have hvalue := hagrees v term hsaid value hv
        subst hvalue
        exact .inl (mem_of_lookup hv)

/-- **A row can be extended** by a statement that agrees with it exactly if what the two say together
gives no variable two values, and then the new row says just that. -/
theorem extendRow_spec (hrow : Distinct row)
    (hagrees : AgreesWith row (pattern.valuesIn triple)) :
    match extendRow pattern triple row with
    | some extended => Distinct extended ∧ Functional (row ++ pattern.valuesIn triple) ∧
        ∀ x, x ∈ extended ↔ x ∈ row ++ pattern.valuesIn triple
    | none => ¬ Functional (row ++ pattern.valuesIn triple) := by
  unfold extendRow
  cases hcollect : collectValues (fun v => (row.lookup v).isSome) triple pattern.slots [] with
  | some found =>
    obtain ⟨hdistinct, hfound⟩ := collectValues_some distinct_nil (by simp) hcollect
    simp only [List.not_mem_nil, false_or] at hfound
    have hmem : ∀ x, x ∈ row ++ found ↔ x ∈ row ++ pattern.valuesIn triple := fun x => by
      rw [List.mem_append, hfound, mem_row_or_open hagrees]
    have hextended : Distinct (row ++ found) := by
      refine hrow.append hdistinct fun x hx => ?_
      have hopen : (row.lookup x.1).isSome = false := isOpen_of_collectValues hcollect hx
      simpa using hopen
    exact ⟨hextended, (functional_congr hmem).mp hextended.functional, hmem⟩
  | none =>
    intro hfunctional
    have hopen : Functional ([] ++ openValues (fun v => (row.lookup v).isSome) pattern.slots triple) :=
      functional_of_subset (fun x hx => (mem_row_or_open hagrees x).mp (.inr hx)) hfunctional
    obtain ⟨found, hfound⟩ := exists_collectValues (by simp) hopen
    rw [hcollect] at hfound
    cases hfound

end

end QuadStore
