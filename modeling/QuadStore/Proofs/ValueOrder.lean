import Mathlib
import QuadStore.Proofs.Membership

/-!
# Values are selected by their order

A comparison with a number or with an instant becomes a range of values, or a single value.  Instants
are integers and have the order of integers.  The order of doubles in the index is another one than
that of numbers, being the order of their patterns: it tells the two zeros apart, and it gives every
not-a-number a place beyond the infinities.

The first difference cannot be seen, since the values of lexical forms never have the pattern of the
negative zero, whether a text says `-0` or is too small to be anything else
(`Binary64.unsignedZero_bits_ne_signBit`).  So patterns that stand for numbers at all are ordered as
these numbers are (`Binary64.holds_iff_compares`), infinities included.  The second one is seen: a
literal that says `NaN` is equal to itself as every other value is, which is how it is found at all.

The main statement is `comparison_selects_by_order`.  It leaves open what the four orders select where a
not-a-number is asked for or kept.
-/

namespace QuadStore

/-- Two elements of an order stand in the relation that a comparison asks for. -/
def Comparison.Holds {α : Type} [LE α] [LT α] (relation : Comparison) (x y : α) : Prop :=
  match relation with
  | .equal => x = y
  | .less => x < y
  | .lessOrEqual => x ≤ y
  | .greater => y < x
  | .greaterOrEqual => y ≤ x

namespace Comparison

variable {α β : Type} [LinearOrder α] [LinearOrder β] {x y : α} {x' y' : β}

instance (relation : Comparison) (x y : α) : Decidable (relation.Holds x y) :=
  match relation with
  | .equal => inferInstanceAs (Decidable (x = y))
  | .less => inferInstanceAs (Decidable (x < y))
  | .lessOrEqual => inferInstanceAs (Decidable (x ≤ y))
  | .greater => inferInstanceAs (Decidable (y < x))
  | .greaterOrEqual => inferInstanceAs (Decidable (y ≤ x))

/-- Pairs that are ordered alike stand in the same relations. -/
lemma holds_congr (relation : Comparison) (hlt : x < y ↔ x' < y') (hgt : y < x ↔ y' < x') :
    relation.Holds x y ↔ relation.Holds x' y' := by
  have heq : x = y ↔ x' = y' := by
    rw [eq_iff_le_not_lt, eq_iff_le_not_lt, ← not_lt, ← not_lt, hlt, hgt]
  cases relation with
  | equal => exact heq
  | less => exact hlt
  | greater => exact hgt
  | lessOrEqual => rw [Holds, Holds, ← not_lt, ← not_lt, hgt]
  | greaterOrEqual => rw [Holds, Holds, ← not_lt, ← not_lt, hlt]

end Comparison

/-! ## The numbers that doubles stand for -/

namespace Binary64

/-- Whether the sign bit of a pattern is set. -/
def isNegative (x : Binary64) : Bool := decide (signBit ≤ x.bits.toNat)

/-- A pattern without its sign. -/
def magnitude (x : Binary64) : Nat := x.bits.toNat % signBit

/-- Whether a pattern stands for no number. -/
def isNaN (x : Binary64) : Bool := decide (infinityBits < x.magnitude)

/-- Sign and magnitude of a pattern as one integer.  The two zeros are one. -/
def signed (x : Binary64) : Int := if x.isNegative then -x.magnitude else x.magnitude

/-- A finite magnitude in units of the smallest positive double, which is `2 ^ -1074`.  The lowest
exponent has no hidden bit. -/
def units (magnitude : ℕ) : ℕ :=
  if magnitude / 2 ^ 52 = 0 then magnitude % 2 ^ 52
  else (2 ^ 52 + magnitude % 2 ^ 52) * 2 ^ (magnitude / 2 ^ 52 - 1)

/-- A finite magnitude with a sign in these units. -/
def signedUnits (signed : ℤ) : ℤ := signed.sign * units signed.natAbs

/-- The number that a pattern stands for. -/
noncomputable def number (x : Binary64) : EReal :=
  if x.magnitude < infinityBits then ((signedUnits x.signed / 2 ^ 1074 : ℝ) : EReal)
  else if x.isNegative then ⊥ else ⊤

/-- Two patterns stand for numbers, and these are in a relation. -/
def Compares (relation : Comparison) (x y : Binary64) : Prop :=
  x.isNaN = false ∧ y.isNaN = false ∧ relation.Holds x.number y.number

/-- Larger magnitudes are larger numbers: within an exponent the fraction counts, and the next exponent
begins where the last one ends. -/
lemma units_strictMono : StrictMono units := by
  intro a b hab
  have hfa : a % 2 ^ 52 < 2 ^ 52 := Nat.mod_lt _ (by decide)
  unfold units
  by_cases hsame : a / 2 ^ 52 = b / 2 ^ 52
  · have hfraction : a % 2 ^ 52 < b % 2 ^ 52 := by omega
    rw [hsame]
    split
    · exact hfraction
    · exact Nat.mul_lt_mul_of_pos_right (by omega) (Nat.two_pow_pos _)
  · have hexponent : a / 2 ^ 52 < b / 2 ^ 52 := by omega
    rw [if_neg (show ¬ b / 2 ^ 52 = 0 by omega)]
    have hbelow : (if a / 2 ^ 52 = 0 then a % 2 ^ 52
        else (2 ^ 52 + a % 2 ^ 52) * 2 ^ (a / 2 ^ 52 - 1)) < 2 ^ 52 * 2 ^ (a / 2 ^ 52) := by
      by_cases hzero : a / 2 ^ 52 = 0
      · rw [if_pos hzero, hzero]
        omega
      · rw [if_neg hzero]
        have hpower : 2 ^ (a / 2 ^ 52) = 2 * 2 ^ (a / 2 ^ 52 - 1) := by
          rw [← Nat.pow_succ']
          congr 1
          omega
        rw [hpower, ← mul_assoc]
        exact Nat.mul_lt_mul_of_pos_right (by omega) (Nat.two_pow_pos _)
    calc
      _ < 2 ^ 52 * 2 ^ (a / 2 ^ 52) := hbelow
      _ ≤ (2 ^ 52 + b % 2 ^ 52) * 2 ^ (b / 2 ^ 52 - 1) :=
        Nat.mul_le_mul (by omega) (Nat.pow_le_pow_right (by decide) (by omega))

lemma signedUnits_natCast (magnitude : ℕ) : signedUnits magnitude = units magnitude := by
  cases magnitude with
  | zero => rfl
  | succ m =>
    have hsign : ((m + 1 : ℕ) : ℤ).sign = 1 := Int.sign_eq_one_of_pos (by omega)
    rw [signedUnits, hsign, one_mul, Int.natAbs_natCast]

lemma signedUnits_strictMono : StrictMono signedUnits := by
  refine strictMono_of_odd_strictMonoOn_nonneg (fun z => by simp [signedUnits]) ?_
  intro a ha b hb hab
  obtain ⟨m, rfl⟩ := Int.eq_ofNat_of_zero_le ha
  obtain ⟨n, rfl⟩ := Int.eq_ofNat_of_zero_le hb
  have hunits : units m < units n := units_strictMono (by omega)
  rw [signedUnits_natCast, signedUnits_natCast]
  omega

/-- A pattern is told by its sign and its magnitude. -/
lemma sign_cases (x : Binary64) :
    (x.isNegative = true ∧ x.bits.toNat = signBit + x.magnitude ∧ x.signed = -x.magnitude) ∨
      (x.isNegative = false ∧ x.bits.toNat = x.magnitude ∧ x.signed = x.magnitude) := by
  have hbits : x.bits.toNat < 2 * signBit := x.bits.toNat_lt
  unfold signed isNegative magnitude
  by_cases hsign : signBit ≤ x.bits.toNat
  · refine .inl ⟨decide_eq_true hsign, ?_, by simp [hsign]⟩
    rw [Nat.mod_eq_sub_mod hsign, Nat.mod_eq_of_lt (by omega)]
    omega
  · refine .inr ⟨decide_eq_false hsign, ?_, by simp [hsign]⟩
    rw [Nat.mod_eq_of_lt (by omega)]

/-- A pattern that stands for a number is finite, or the largest or the smallest of all numbers. -/
lemma number_cases {x : Binary64} (h : x.isNaN = false) :
    (x.signed.natAbs < infinityBits ∧ x.number = ((signedUnits x.signed / 2 ^ 1074 : ℝ) : EReal)) ∨
      (x.signed = infinityBits ∧ x.number = ⊤) ∨ (x.signed = -infinityBits ∧ x.number = ⊥) := by
  have hle : x.magnitude ≤ infinityBits := not_lt.mp (of_decide_eq_false h)
  unfold number
  by_cases hfinite : x.magnitude < infinityBits
  · refine .inl ⟨?_, if_pos hfinite⟩
    rcases sign_cases x with ⟨-, -, hsigned⟩ | ⟨-, -, hsigned⟩ <;> omega
  · rw [if_neg hfinite]
    rcases sign_cases x with ⟨hsign, -, hsigned⟩ | ⟨hsign, -, hsigned⟩
    · exact .inr (.inr ⟨by omega, if_pos hsign⟩)
    · exact .inr (.inl ⟨by omega, by simp [hsign]⟩)

/-- **The order of numbers is that of sign and magnitude**, infinities included. -/
lemma number_lt_iff_signed_lt {x y : Binary64} (hx : x.isNaN = false) (hy : y.isNaN = false) :
    x.number < y.number ↔ x.signed < y.signed := by
  have hinfinity : 0 < infinityBits := by decide
  rcases number_cases hx with ⟨hfx, hnx⟩ | ⟨hsx, hnx⟩ | ⟨hsx, hnx⟩ <;>
    rcases number_cases hy with ⟨hfy, hny⟩ | ⟨hsy, hny⟩ | ⟨hsy, hny⟩ <;> rw [hnx, hny]
  · rw [EReal.coe_lt_coe_iff, div_lt_div_iff_of_pos_right (by positivity), Int.cast_lt,
      signedUnits_strictMono.lt_iff_lt]
  · exact iff_of_true (EReal.coe_lt_top _) (by omega)
  · exact iff_of_false not_lt_bot (by omega)
  · exact iff_of_false not_top_lt (by omega)
  · exact iff_of_false (lt_irrefl _) (by omega)
  · exact iff_of_false not_top_lt (by omega)
  · exact iff_of_true (EReal.bot_lt_coe _) (by omega)
  · exact iff_of_true bot_lt_top (by omega)
  · exact iff_of_false (lt_irrefl _) (by omega)

/-- Two patterns compare if none of them is a not-a-number and sign and magnitude are in the
relation. -/
lemma compares_iff_signed (relation : Comparison) (x y : Binary64) :
    Compares relation x y ↔
      x.isNaN = false ∧ y.isNaN = false ∧ relation.Holds x.signed y.signed := by
  refine and_congr_right fun hx => and_congr_right fun hy => ?_
  exact relation.holds_congr (number_lt_iff_signed_lt hx hy) (number_lt_iff_signed_lt hy hx)

/-! ## The order of the index -/

/-- Negative patterns go downwards from the middle of the order, and the others upwards. -/
lemma rank_cases (x : Binary64) :
    (signBit ≤ x.bits.toNat ∧ (x.rank : ℤ) = signBit - 1 + x.signed) ∨
      (x.bits.toNat < signBit ∧ (x.rank : ℤ) = signBit + x.signed) := by
  have hsignBit : signBit = 0x8000000000000000 := rfl
  have hbits : x.bits.toNat < 2 * signBit := x.bits.toNat_lt
  have hmagnitude : x.magnitude < signBit := Nat.mod_lt _ (by decide)
  unfold rank
  rcases sign_cases x with ⟨-, hsign, hsigned⟩ | ⟨-, hsign, hsigned⟩
  · refine .inl ⟨by omega, ?_⟩
    rw [if_neg (by omega)]
    omega
  · refine .inr ⟨by omega, ?_⟩
    rw [if_pos (by omega)]
    omega

/-- Sign and magnitude put patterns into the order of the index, but for the negative zero. -/
lemma rank_lt_iff_signed_lt {x y : Binary64} (hx : x.bits.toNat ≠ signBit)
    (hy : y.bits.toNat ≠ signBit) : x.rank < y.rank ↔ x.signed < y.signed := by
  have hxSign := sign_cases x
  have hySign := sign_cases y
  rcases rank_cases x with ⟨hxBits, hxRank⟩ | ⟨hxBits, hxRank⟩ <;>
    rcases rank_cases y with ⟨hyBits, hyRank⟩ | ⟨hyBits, hyRank⟩ <;> omega

lemma rank_injective : Function.Injective rank := by
  intro x y h
  have hsignBit : signBit = 0x8000000000000000 := rfl
  have hx : x.bits.toNat < 2 * signBit := x.bits.toNat_lt
  have hy : y.bits.toNat < 2 * signBit := y.bits.toNat_lt
  have hbits : x.bits.toNat = y.bits.toNat := by
    unfold rank at h
    split at h <;> split at h <;> omega
  cases x
  cases y
  exact congrArg Binary64.mk (UInt64.toNat_inj.mp hbits)

/-- A value never has the pattern of the negative zero. -/
lemma unsignedZero_bits_ne_signBit (x : Binary64) : x.unsignedZero.bits.toNat ≠ signBit := by
  unfold unsignedZero
  split
  · decide
  · rename_i hzero
    intro hbits
    exact hzero (by rw [isZero, hbits]; decide)

lemma holds_iff_rank (relation : Comparison) (x y : Binary64) :
    relation.Holds x y ↔ relation.Holds x.rank y.rank := by
  cases relation with
  | equal => exact rank_injective.eq_iff.symm
  | less | lessOrEqual | greater | greaterOrEqual => exact Iff.rfl

/-- **Patterns that stand for numbers have the order of these numbers** in the index, if none of them is
the negative zero. -/
lemma holds_iff_compares {x y : Binary64} (relation : Comparison) (hx : x.isNaN = false)
    (hy : y.isNaN = false) (hxBits : x.bits.toNat ≠ signBit) (hyBits : y.bits.toNat ≠ signBit) :
    relation.Holds x y ↔ Compares relation x y := by
  rw [compares_iff_signed, and_iff_right hx, and_iff_right hy, holds_iff_rank]
  exact relation.holds_congr (rank_lt_iff_signed_lt hxBits hyBits)
    (rank_lt_iff_signed_lt hyBits hxBits)

end Binary64

/-! ## Values -/

namespace Value

/-- Whether a value is a pattern that stands for no number. -/
def isNaN : Value → Bool
  | .numeric x => x.isNaN
  | _ => false

/-- Two values are in a relation: numbers by the numbers that their patterns stand for, and instants as
integers.  Other values have no order. -/
def Stands (relation : Comparison) : Value → Value → Prop
  | .numeric x, .numeric y => x.Compares relation y
  | .date m, .date n => relation.Holds m n
  | _, _ => False

/-- The predicate that asks for the values in a relation to this one. -/
def asking (relation : Comparison) (value : Value) : Predicate :=
  if relation = .equal then .ofValue value
  else match value with
    | .boolean b => .boolean b
    | .numeric x => .numericRange (relation.bounds x).1 (relation.bounds x).2
    | .date n => .dateRange (relation.bounds n).1 (relation.bounds n).2

end Value

/-- The values between the ends of a range are those in the relation that it was made for. -/
lemma Comparison.bounds_iff {α : Type} [LE α] [LT α] [DecidableLE α] [DecidableLT α]
    {relation : Comparison} (h : relation ≠ .equal) (x y : α) :
    ((relation.bounds y).1.below x && (relation.bounds y).2.above x) = true ↔
      relation.Holds x y := by
  cases relation with
  | equal => exact absurd rfl h
  | less | lessOrEqual | greater | greaterOrEqual => simp [bounds, Bound.below, Bound.above, Holds]

section

variable {record : Record} {kind : LiteralKind} {asked : String}

lemma satisfiedBy_asking_numeric (relation : Comparison) {x : Binary64}
    (h : record.value = some (.numeric x)) (y : Binary64) :
    ((Value.numeric y).asking relation).satisfiedBy record = true ↔ relation.Holds x y := by
  rw [Predicate.satisfiedBy, Value.asking]
  by_cases hequal : relation = .equal
  · rw [if_pos hequal, hequal]
    simp [Predicate.isSearchable, Predicate.ofValue, Predicate.holdsOf, h, Comparison.Holds]
  · rw [if_neg hequal, ← Comparison.bounds_iff hequal]
    simp [Predicate.isSearchable, Predicate.holdsOf, h]

lemma satisfiedBy_asking_date (relation : Comparison) {m : Int}
    (h : record.value = some (.date m)) (n : Int) :
    ((Value.date n).asking relation).satisfiedBy record = true ↔ relation.Holds m n := by
  rw [Predicate.satisfiedBy, Value.asking]
  by_cases hequal : relation = .equal
  · rw [if_pos hequal, hequal]
    simp [Predicate.isSearchable, Predicate.ofValue, Predicate.holdsOf, h, Comparison.Holds]
  · rw [if_neg hequal, ← Comparison.bounds_iff hequal]
    simp [Predicate.isSearchable, Predicate.holdsOf, h]

/-- The zeros that lexical forms denote are positive. -/
lemma LiteralKind.bits_ne_signBit {x : Binary64} (h : kind.value? asked = some (.numeric x)) :
    x.bits.toNat ≠ Binary64.signBit := by
  cases kind with
  | numeric =>
    simp only [value?, numeric?, Option.map_map, Option.map_eq_some_iff] at h
    obtain ⟨y, -, hvalue⟩ := h
    cases hvalue
    exact y.unsignedZero_bits_ne_signBit
  | boolean | date | text => simp [value?] at h

/-- A comparison with a lexical form that denotes a number or an instant is never refused. -/
lemma LiteralKind.comparison_eq (hkind : kind = .numeric ∨ kind = .date) (relation : Comparison)
    {value : Value} (h : kind.value? asked = some value) :
    kind.comparison relation asked = .ok (value.asking relation) := by
  have hequality : kind.equality asked = .ok (.ofValue value) := by
    unfold equality
    rcases hkind with rfl | rfl <;> rw [h]
  unfold comparison Value.asking
  by_cases hequal : relation = .equal
  · rw [if_pos hequal, if_pos hequal, hequality]
  · rw [if_neg hequal, if_neg hequal, h]
    cases value with
    | numeric | date => rfl
    | boolean b => rcases hkind with rfl | rfl <;> simp [value?] at h

lemma LiteralKind.exists_numeric {value : Value} (h : numeric.value? asked = some value) :
    ∃ x, value = .numeric x := by
  obtain ⟨x, -, hx⟩ := Option.map_eq_some_iff.mp h
  exact ⟨x, hx.symm⟩

lemma LiteralKind.exists_date {value : Value} (h : date.value? asked = some value) :
    ∃ n, value = .date n := by
  obtain ⟨n, -, hn⟩ := Option.map_eq_some_iff.mp h
  exact ⟨n, hn.symm⟩

end

section

variable {quad : Quad} {stored : Literal} {kind : LiteralKind} {asked : String} {value kept : Value}

/-- **Values in the index** are selected as the numbers and the instants that they are. -/
lemma satisfiedBy_asking_iff_stands (hkind : kind = .numeric ∨ kind = .date)
    (relation : Comparison) (hvalue : kind.value? asked = some value)
    (hquad : quad.triple.object = .literal stored) (hstored : stored.kind = kind)
    (hkept : stored.value? = some kept) (hvalueNumber : value.isNaN = false)
    (hkeptNumber : kept.isNaN = false) :
    (value.asking relation).satisfiedBy quad.record = true ↔ kept.Stands relation value := by
  have hrecord : quad.record.value = some kept := (Quad.record_of_literal hquad).2.1.trans hkept
  have hkept' : kind.value? stored.lexical = some kept := hstored ▸ hkept
  rcases hkind with rfl | rfl
  · obtain ⟨y, rfl⟩ := LiteralKind.exists_numeric hvalue
    obtain ⟨x, rfl⟩ := LiteralKind.exists_numeric hkept'
    rw [satisfiedBy_asking_numeric relation hrecord]
    exact Binary64.holds_iff_compares relation hkeptNumber hvalueNumber
      (LiteralKind.bits_ne_signBit hkept') (LiteralKind.bits_ne_signBit hvalue)
  · obtain ⟨n, rfl⟩ := LiteralKind.exists_date hvalue
    obtain ⟨m, rfl⟩ := LiteralKind.exists_date hkept'
    exact satisfiedBy_asking_date relation hrecord n

/-- Equality in the index is that of patterns and of instants. -/
lemma satisfiedBy_asking_equal (hquad : quad.triple.object = .literal stored)
    (hkept : stored.value? = some kept) :
    (value.asking .equal).satisfiedBy quad.record = true ↔ kept = value := by
  have hrecord : quad.record.value = some kept := (Quad.record_of_literal hquad).2.1.trans hkept
  have hsearchable : (Predicate.ofValue value).isSearchable = true := by
    cases value <;> rfl
  have hasking : value.asking .equal = .ofValue value := if_pos rfl
  rw [hasking, Predicate.satisfiedBy, hsearchable, Bool.true_and, holdsOf_ofValue, hrecord,
    Option.some.injEq]

end

lemma Record.satisfies_singleton (record : Record) (predicate : Predicate) :
    record.satisfies [predicate] = predicate.satisfiedBy record := by
  rw [satisfies, List.all_cons, List.all_nil, Bool.and_true]

/-- **A comparison selects by order.**  Asked for the literals of a kind that stand in a relation to
a lexical form that denotes a number or an instant, the index is always given a predicate.  A stored
literal of that kind with a value satisfies it just when the relation holds: between instants as
integers, and between patterns that both stand for numbers as these numbers, whether they are finite or
infinite and however the zeros were written.  Equality holds of equal patterns, so that a not-a-number
is found by its own text, and by or with a number never. -/
theorem comparison_selects_by_order {kind : LiteralKind} (hkind : kind = .numeric ∨ kind = .date)
    (relation : Comparison) {asked : String} {value : Value}
    (hvalue : kind.value? asked = some value) :
    ∃ predicate, kind.comparison relation asked = .ok predicate ∧
      ∀ (quad : Quad) (stored : Literal) (kept : Value), quad.triple.object = .literal stored →
        stored.kind = kind → stored.value? = some kept →
        (value.isNaN = false → kept.isNaN = false →
          (quad.record.satisfies [predicate] = true ↔ kept.Stands relation value)) ∧
        (relation = .equal → (quad.record.satisfies [predicate] = true ↔ kept = value)) := by
  refine ⟨value.asking relation, LiteralKind.comparison_eq hkind relation hvalue, ?_⟩
  intro quad stored kept hquad hstored hkept
  rw [Record.satisfies_singleton]
  refine ⟨satisfiedBy_asking_iff_stands hkind relation hvalue hquad hstored hkept, ?_⟩
  rintro rfl
  exact satisfiedBy_asking_equal hquad hkept

/-- A negative text that is too small to be anything but zero is not below zero but equal to it, and one
that is too large for a finite number is below it. -/
theorem comparison_selects_by_order_zeros :
    let double (lexical : String) : Literal := .ofDatatype lexical Xsd.double
    let quad (lexical : String) : Quad :=
      ⟨⟨.iri ⟨"s"⟩, ⟨"p"⟩, .literal (double lexical)⟩, .default⟩
    ∃ below equal, LiteralKind.numeric.comparison .less "-0" = .ok below ∧
      LiteralKind.numeric.comparison .equal "-0" = .ok equal ∧
      (quad "-1e-400").record.satisfies [below] = false ∧
      (quad "-1e-400").record.satisfies [equal] = true ∧
      (quad "-1e400").record.satisfies [below] = true := by
  intro double quad
  have hzero : LiteralKind.numeric.value? "-0" = some (.numeric .zero) := by decide +kernel
  have hsmall : (double "-1e-400").value? = some (.numeric .zero) := by decide +kernel
  have hlarge : (double "-1e400").value? = some (.numeric ⟨0xFFF0000000000000⟩) := by decide +kernel
  have hkind : (double "-1e-400").kind = .numeric ∧ (double "-1e400").kind = .numeric := by
    decide +kernel
  obtain ⟨below, hbelow, hselects⟩ := comparison_selects_by_order (.inl rfl) .less hzero
  obtain ⟨equal, hequal, hfinds⟩ := comparison_selects_by_order (.inl rfl) .equal hzero
  refine ⟨below, equal, hbelow, hequal, ?_, ?_, ?_⟩
  · rw [← Bool.not_eq_true, (hselects _ _ _ rfl hkind.1 hsmall).1 rfl rfl, Value.Stands,
      Binary64.compares_iff_signed]
    decide
  · exact ((hfinds _ _ _ rfl hkind.1 hsmall).2 rfl).mpr rfl
  · rw [(hselects _ _ _ rfl hkind.2 hlarge).1 rfl rfl, Value.Stands, Binary64.compares_iff_signed]
    decide

/-- **A not-a-number is equal to itself**: a literal that says so is selected by the comparison for
equality with its own text, though its value stands in no relation to any. -/
theorem not_a_number_selected :
    let nan : Binary64 := ⟨0x7FF8000000000000⟩
    let literal : Literal := .ofDatatype "NaN" Xsd.double
    let quad : Quad := ⟨⟨.iri ⟨"s"⟩, ⟨"p"⟩, .literal literal⟩, .default⟩
    literal.kind = .numeric ∧ literal.value? = some (.numeric nan) ∧
      LiteralKind.numeric.value? "NaN" = some (.numeric nan) ∧
      LiteralKind.numeric.comparison .equal "NaN" = .ok (.numeric nan) ∧
      ¬ (quad.record.satisfies [.numeric nan] = true ↔
        (Value.numeric nan).Stands .equal (.numeric nan)) := by
  intro nan literal quad
  have hselected : quad.record.satisfies [.numeric nan] = true := by decide +kernel
  have hunrelated : ¬ (Value.numeric nan).Stands .equal (.numeric nan) := by
    rintro ⟨hnumber, -⟩
    cases hnumber
  refine ⟨by decide +kernel, by decide +kernel, by decide +kernel, by decide +kernel, ?_⟩
  exact fun h => hunrelated (h.mp hselected)

end QuadStore
