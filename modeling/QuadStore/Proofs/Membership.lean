import Mathlib
import QuadStore.Proofs.ConstraintMeaning
import QuadStore.Proofs.StoreInvariants

/-!
# Asking for a statement

A store is asked for a statement by a pattern without variables, and so the object is looked up as in
any pattern: a literal by its language and its value.  What is asked is therefore not whether a graph
has this very statement, but whether it has one with the same subject and predicate and an object of
the same value (`Triple.SameValue`).  A literal without value is looked up by its lexical form, whatever
its datatype; and for a literal of a kind with values whose lexical form denotes none, nothing can be
asked at all.

The main statement, `contains_compares_values`, says so of every store that a history of commands
leaves.  Commands may fail: then they change nothing that is shown or staged
(`StoreCommand.after_refines`).
-/

namespace QuadStore

/-! ## Equal values -/

/-- Literals of one language that denote the same value, or that denote none and have the same lexical
form. -/
def Literal.SameValue (a b : Literal) : Prop :=
  a.languageKey = b.languageKey ∧ a.value? = b.value? ∧ (a.value? = none → a.lexical = b.lexical)

/-- The same term, or literals of the same value. -/
def Term.SameValue : Term → Term → Prop
  | .literal a, .literal b => a.SameValue b
  | a, b => a = b

/-- Statements with the same subject and predicate, and with objects of the same value. -/
def Triple.SameValue (a b : Triple) : Prop :=
  a.subject = b.subject ∧ a.predicate = b.predicate ∧ a.object.SameValue b.object

instance (a b : Literal) : Decidable (a.SameValue b) :=
  inferInstanceAs (Decidable (_ ∧ _ ∧ (_ → _)))

instance (a b : Term) : Decidable (a.SameValue b) :=
  match a, b with
  | .literal a, .literal b => inferInstanceAs (Decidable (a.SameValue b))
  | .literal a, .iri b => inferInstanceAs (Decidable (Term.literal a = .iri b))
  | .literal a, .blank b => inferInstanceAs (Decidable (Term.literal a = .blank b))
  | .iri a, b => inferInstanceAs (Decidable (Term.iri a = b))
  | .blank a, b => inferInstanceAs (Decidable (Term.blank a = b))

instance (a b : Triple) : Decidable (a.SameValue b) := inferInstanceAs (Decidable (_ ∧ _ ∧ _))

lemma Term.sameValue_of_resource {a b : Term} (h : ∀ l, b ≠ .literal l) :
    a.SameValue b ↔ a = b := by
  cases b with
  | literal l => exact absurd rfl (h l)
  | iri | blank => cases a <;> exact Iff.rfl

/-- The texts by which an object is searched for. -/
def Term.searchTexts : Term → List String
  | .literal l => l.languageKey :: if l.kind = .text then [l.lexical] else []
  | term => [term.encode]

/-- The texts by which a statement is searched for in a graph. -/
def Triple.searchTexts (triple : Triple) (graph : GraphName) : List String :=
  graph.encode :: triple.subject.encode :: triple.predicate.encode :: triple.object.searchTexts

/-! ## The predicates of a statement -/

lemma Literal.key_language? {l : Literal} (h : l.WellFormed) :
    LanguageCache.key l.language? = l.languageKey := by
  cases l with
  | simple | typed => rfl
  | tagged lexical tag =>
    have hempty : tag.isEmpty = false := by
      rw [← Bool.not_eq_true, String.isEmpty_iff]
      exact h
    simp [LanguageCache.key, Literal.language?, Literal.languageKey, hempty]

section

variable {quad : Quad} {l stored : Literal}

/-- A record has the value of its literal, or its lexical form as text. -/
lemma Quad.record_of_literal (h : quad.triple.object = .literal stored) :
    quad.record.language = some stored.languageKey ∧ quad.record.value = stored.value? ∧
      quad.record.text = if stored.value? = none then some stored.lexical else none := by
  have hvalue : stored.value? = stored.kind.value? stored.lexical := rfl
  simp only [Quad.record, Record.ofTriple, h, Term.project, LiteralKind.project, ← hvalue]
  cases stored.value? <;> simp

lemma Quad.language_of_resource (h : ∀ l, quad.triple.object ≠ .literal l) :
    quad.record.language = none := by
  simp only [Quad.record, Record.ofTriple, Term.project.eq_2 _ h]

lemma holdsOf_ofValue {value : Value} {record : Record} :
    (Predicate.ofValue value).holdsOf record = true ↔ record.value = some value := by
  cases value <;> simp [Predicate.ofValue, Predicate.holdsOf]

lemma holdsOf_text {field : Field} {text : String} {record : Record} :
    (Predicate.text field text).holdsOf record = true ↔ record.textOf field = some text := by
  simp [Predicate.holdsOf]

lemma Quad.satisfiedBy_termPredicate {position : Position} {term : Term}
    (hkey : isKey term.encode = true) :
    (termPredicate position term).satisfiedBy quad.record = true ↔ quad.triple.at position = term := by
  have hsearchable : (termPredicate position term).isSearchable = true := hkey
  rw [Predicate.satisfiedBy, hsearchable, Bool.true_and, Quad.holdsOf_termPredicate]

/-- **The predicate for a literal's value** asks for literals of the same value, in any language. -/
lemma Literal.holdsOf_equality {predicate : Predicate}
    (h : l.kind.equality l.lexical = .ok predicate) (hquad : quad.triple.object = .literal stored) :
    predicate.holdsOf quad.record = true ↔
      stored.value? = l.value? ∧ (stored.value? = none → stored.lexical = l.lexical) := by
  obtain ⟨-, hvalue, htext⟩ := Quad.record_of_literal hquad
  unfold LiteralKind.equality at h
  split at h
  · rename_i htextKind
    cases h
    have hnone : l.value? = none := by
      rw [Literal.value?, htextKind]
      rfl
    rw [holdsOf_text, Record.textOf, htext, hnone]
    cases stored.value? <;> simp
  · rename_i value hsome _
    cases h
    have hsome : l.value? = some value := hsome
    rw [holdsOf_ofValue, hvalue, hsome]
    cases stored.value? <;> simp
  · cases h

/-- **The predicates for an object** ask for objects of the same value. -/
lemma Quad.meets_objectPredicates {object : Term} (hwellFormed : object.WellFormed)
    {filters : List Predicate} (h : built (objectPredicates object) = .ok filters) :
    quad.record.meets filters = true ↔ quad.triple.object.SameValue object := by
  cases object with
  | literal l =>
    rw [built_objectPredicates_literal] at h
    obtain ⟨predicate, hequality, rfl⟩ := exists_of_map_eq_ok h
    rw [Record.meets, List.all_cons, List.all_cons, List.all_nil, Bool.and_true, Bool.and_eq_true,
      LanguageCache.predicateOf, holdsOf_text, Literal.key_language? hwellFormed, Record.textOf]
    cases hobject : quad.triple.object with
    | literal stored =>
      rw [(Quad.record_of_literal hobject).1, Literal.holdsOf_equality hequality hobject,
        Option.some.injEq]
      rfl
    | iri | blank =>
      rw [Quad.language_of_resource (by simp [hobject])]
      simp [Term.SameValue]
  | iri | blank =>
    cases h
    rw [Record.meets, List.all_cons, List.all_nil, Bool.and_true, Quad.holdsOf_termPredicate,
      Term.sameValue_of_resource (by simp)]
    rfl

/-- The predicates for an object are searched for by its texts. -/
lemma isSearchable_of_built_objectPredicates {object : Term} (hwellFormed : object.WellFormed)
    (hkeys : ∀ text ∈ object.searchTexts, isKey text = true) {filters : List Predicate}
    (h : built (objectPredicates object) = .ok filters) :
    ∀ predicate ∈ filters, predicate.isSearchable = true := by
  cases object with
  | literal l =>
    rw [built_objectPredicates_literal] at h
    obtain ⟨predicate, hequality, rfl⟩ := exists_of_map_eq_ok h
    have hlanguage : isKey (LanguageCache.key l.language?) = true :=
      Literal.key_language? hwellFormed ▸ hkeys _ List.mem_cons_self
    refine List.forall_mem_cons.mpr ⟨hlanguage, List.forall_mem_singleton.mpr ?_⟩
    unfold LiteralKind.equality at hequality
    split at hequality
    · rename_i htextKind
      cases hequality
      exact hkeys _ (by simp [Term.searchTexts, htextKind])
    · rename_i value _ _
      cases hequality
      cases value <;> rfl
    · cases hequality
  | iri | blank =>
    cases h
    exact List.forall_mem_singleton.mpr (hkeys _ List.mem_cons_self)

/-- The index finds an object by its predicates if its texts are short enough. -/
lemma Quad.satisfies_objectPredicates {object : Term} (hwellFormed : object.WellFormed)
    (hkeys : ∀ text ∈ object.searchTexts, isKey text = true) {filters : List Predicate}
    (h : built (objectPredicates object) = .ok filters) :
    quad.record.satisfies filters = true ↔ quad.triple.object.SameValue object := by
  rw [← Quad.meets_objectPredicates hwellFormed h]
  have hsearchable := isSearchable_of_built_objectPredicates hwellFormed hkeys h
  rw [Record.satisfies, Record.meets, all_congr_mem fun predicate hpredicate => ?_]
  rw [Predicate.satisfiedBy, hsearchable predicate hpredicate, Bool.true_and]

end

/-- The predicates that ask for a statement in a graph. -/
lemma built_patternPredicates_toPattern (graph : GraphName) (triple : Triple)
    (lookup : Variable → Option Term) :
    built (patternPredicates graph triple.toPattern lookup) =
      (built (objectPredicates triple.object)).map fun object =>
        graphPredicate graph :: termPredicate .subject triple.subject.toTerm ::
          termPredicate .predicate (.iri triple.predicate) :: object := by
  rw [built_patternPredicates]
  have hsubject : built (slotPredicates lookup .subject (.term triple.subject.toTerm)) =
      .ok [termPredicate .subject triple.subject.toTerm] := rfl
  have hpredicate : built (slotPredicates lookup .predicate (.term (.iri triple.predicate))) =
      .ok [termPredicate .predicate (.iri triple.predicate)] := rfl
  have hobject : built (slotPredicates lookup .object (.term triple.object)) =
      built (objectPredicates triple.object) := rfl
  simp only [TriplePattern.slots, Triple.toPattern, List.mapM_cons, List.mapM_nil, hsubject,
    hpredicate, hobject]
  cases built (objectPredicates triple.object) with
  | error fault => rfl
  | ok object =>
    show Except.ok (_ :: _ :: _ :: (object ++ [])) = _
    rw [List.append_nil]
    rfl

/-- **The predicates for a statement** ask for those of the same value in the graph. -/
theorem Quad.satisfies_toPattern {quad : Quad} {graph : GraphName} {triple : Triple}
    (hwellFormed : triple.WellFormed)
    (hkeys : ∀ text ∈ triple.searchTexts graph, isKey text = true) {filters : List Predicate}
    (h : built (patternPredicates graph triple.toPattern fun _ => none) = .ok filters) :
    quad.record.satisfies filters = true ↔ quad.graph = graph ∧ quad.triple.SameValue triple := by
  simp only [Triple.searchTexts, List.forall_mem_cons] at hkeys
  obtain ⟨hgraphKey, hsubjectKey, hpredicateKey, hobjectKeys⟩ := hkeys
  rw [built_patternPredicates_toPattern] at h
  obtain ⟨object, hobject, rfl⟩ := exists_of_map_eq_ok h
  have hrest : quad.record.satisfies object = true ↔ quad.triple.object.SameValue triple.object :=
    Quad.satisfies_objectPredicates hwellFormed.object hobjectKeys hobject
  have hsubject : (termPredicate .subject triple.subject.toTerm).satisfiedBy quad.record = true ↔
      quad.triple.subject.toTerm = triple.subject.toTerm :=
    Quad.satisfiedBy_termPredicate (triple.subject.encode_toTerm ▸ hsubjectKey)
  have hpredicate : (termPredicate .predicate (.iri triple.predicate)).satisfiedBy quad.record = true ↔
      Term.iri quad.triple.predicate = .iri triple.predicate :=
    Quad.satisfiedBy_termPredicate hpredicateKey
  rw [Record.satisfies] at hrest ⊢
  rw [List.all_cons, List.all_cons, List.all_cons, Bool.and_eq_true, Bool.and_eq_true,
    Bool.and_eq_true, hrest, hsubject, hpredicate, Quad.satisfiedBy_graphPredicate,
    and_iff_right hgraphKey, Resource.toTerm_injective.eq_iff, Term.iri.injEq]
  rfl

/-- An object that can be asked for: if it is a literal of a kind with values, it denotes one. -/
def Term.Askable : Term → Prop
  | .literal l => l.kind = .text ∨ l.value? ≠ none
  | _ => True

instance (term : Term) : Decidable term.Askable :=
  match term with
  | .literal _ => inferInstanceAs (Decidable (_ ∨ _))
  | .iri _ | .blank _ => inferInstanceAs (Decidable True)

lemma exists_built_objectPredicates {object : Term} (h : object.Askable) :
    ∃ filters, built (objectPredicates object) = .ok filters := by
  cases object with
  | iri | blank => exact ⟨_, rfl⟩
  | literal l =>
    obtain ⟨predicate, hpredicate⟩ : ∃ predicate, l.kind.equality l.lexical = .ok predicate := by
      unfold LiteralKind.equality
      split
      · exact ⟨_, rfl⟩
      · exact ⟨_, rfl⟩
      · rename_i hnone htext
        exact (h.resolve_left htext hnone).elim
    rw [built_objectPredicates_literal, hpredicate]
    exact ⟨_, rfl⟩

/-- Nothing can be asked for a literal of a kind with values that denotes none. -/
lemma built_objectPredicates_of_not_askable {object : Term} (h : ¬ object.Askable) :
    ∃ l, object = .literal l ∧ l.kind ≠ .text ∧ l.value? = none ∧
      built (objectPredicates object) = .error (.invalidValue l.kind l.lexical) := by
  cases object with
  | iri | blank => exact absurd trivial h
  | literal l =>
    obtain ⟨hkind, hvalue⟩ := not_or.mp h
    have hnone : l.kind.value? l.lexical = none := not_not.mp hvalue
    have hequality : l.kind.equality l.lexical = .error (.invalidValue l.kind l.lexical) := by
      unfold LiteralKind.equality
      split
      · rename_i htext
        exact absurd htext hkind
      · rename_i value hsome _
        rw [hnone] at hsome
        cases hsome
      · rfl
    refine ⟨l, rfl, hkind, hnone, ?_⟩
    rw [built_objectPredicates_literal, hequality]
    rfl

lemma exists_built_toPattern {triple : Triple} (graph : GraphName) (h : triple.object.Askable) :
    ∃ filters, built (patternPredicates graph triple.toPattern fun _ => none) = .ok filters := by
  obtain ⟨object, hobject⟩ := exists_built_objectPredicates h
  rw [built_patternPredicates_toPattern, hobject]
  exact ⟨_, rfl⟩

lemma built_toPattern_of_not_askable (graph : GraphName) {triple : Triple}
    (h : ¬ triple.object.Askable) :
    ∃ l, triple.object = .literal l ∧
      built (patternPredicates graph triple.toPattern fun _ => none) =
        .error (.invalidValue l.kind l.lexical) := by
  obtain ⟨l, hobject, -, -, hbuilt⟩ := built_objectPredicates_of_not_askable h
  rw [built_patternPredicates_toPattern, hbuilt]
  exact ⟨l, hobject, rfl⟩

/-! ## The store -/

namespace Store

variable {known : Set Quad} {sets : GraphSets} {store : Store} {graph : GraphName} {triple : Triple}

/-- **A store that shows certain sets** has a statement, if it can be asked for, when the set of the
graph holds one of the same value. -/
theorem contains_of_recordsOf (hvisible : RecordsOf known sets store.visible.records)
    (hlanguages : store.languages.Sound) (hwellFormed : triple.WellFormed)
    (hkeys : ∀ text ∈ triple.searchTexts graph, isKey text = true) (haskable : triple.object.Askable) :
    ∃ found, (contains graph triple store).1 = .ok found ∧
      (found = true ↔ ∃ stored ∈ sets graph, stored.SameValue triple) := by
  obtain ⟨filters, hfilters⟩ := exists_built_toPattern graph haskable
  refine ⟨_, by rw [contains_eq, count_ok hlanguages hfilters]; rfl, ?_⟩
  have hgraphKey : isKey graph.encode = true := hkeys _ List.mem_cons_self
  rw [decide_eq_true_iff, Index.count, List.length_pos_iff_exists_mem]
  constructor
  · rintro ⟨record, hrecord⟩
    obtain ⟨hmem, hsatisfies⟩ := List.mem_filter.mp hrecord
    obtain ⟨quad, -, rfl⟩ := hvisible.known record hmem
    obtain ⟨rfl, hsame⟩ := (Quad.satisfies_toPattern hwellFormed hkeys hfilters).mp hsatisfies
    exact ⟨quad.triple, (hvisible.mem_iff quad hgraphKey).mp hmem, hsame⟩
  · rintro ⟨stored, hstored, hsame⟩
    let quad : Quad := ⟨stored, graph⟩
    have hmem : quad.record ∈ store.visible.records := (hvisible.mem_iff quad hgraphKey).mpr hstored
    have hsatisfies : quad.record.satisfies filters = true :=
      (Quad.satisfies_toPattern hwellFormed hkeys hfilters).mpr ⟨rfl, hsame⟩
    exact ⟨quad.record, List.mem_filter.mpr ⟨hmem, hsatisfies⟩⟩

/-- What cannot be asked for is refused, whatever the store shows. -/
theorem contains_of_not_askable (hlanguages : store.languages.Sound)
    (h : ¬ triple.object.Askable) :
    ∃ l, triple.object = .literal l ∧ (contains graph triple store).1 =
      .error (.query (.filter (.invalidValue l.kind l.lexical))) := by
  obtain ⟨l, hobject, hbuilt⟩ := built_toPattern_of_not_askable graph h
  refine ⟨l, hobject, ?_⟩
  rw [contains_eq, count_error hlanguages hbuilt]
  rfl

end Store

/-! ## Histories with failing commands -/

section

variable {known : Set Quad} {config : StoreConfig} {contents : Contents} {store : Store}

/-- A pattern that cannot be asked for finds nothing, and so deletes nothing. -/
lemma GraphSets.remove_of_error {sets : GraphSets} {graph : GraphName} {pattern : TriplePattern}
    {fault : FilterError}
    (h : built (patternPredicates graph pattern fun _ => none) = .error fault) :
    sets.remove graph (pattern.finds graph) = sets := by
  have hfinds : ∀ triple, pattern.finds graph triple = false := by
    intro triple
    unfold TriplePattern.finds
    rw [h]
  funext graph'
  ext triple
  rw [GraphSets.mem_remove, hfinds]
  simp

/-- **One command**, whether it succeeds or not, keeps the store and the sets in step. -/
theorem StoreCommand.after_refines (h : store.Refines known config contents)
    (hids : Set.InjOn (fun quad : Quad => quad.record.id) known) {command : StoreCommand}
    (hadds : command.Adds known) (hsettled : command = .clearAll → store.Settled) :
    (store.after command.perform).Refines known config (contents.apply command) ∧
      (command = .commit → (store.after command.perform).Settled) := by
  have hsucceeds : command.Within known →
      (store.after command.perform).Refines known config (contents.apply command) ∧
        (command = .commit → (store.after command.perform).Settled) := by
    intro hwithin
    obtain ⟨store', hrun, hrefines, hcommitted⟩ := perform_refines h hids hwithin hsettled
    have hafter : store.after command.perform = store' := congrArg Prod.snd hrun
    rw [hafter]
    exact ⟨hrefines, hcommitted⟩
  cases command with
  | delete graph pattern =>
    cases hbuilt : built (patternPredicates graph pattern fun _ => none) with
    | ok filters => exact hsucceeds (buildable_of_built hbuilt)
    | error fault =>
      obtain ⟨languages, hsound, hrun⟩ := Store.predicatesOf_error h.languages hbuilt
      have hafter : store.after (StoreCommand.delete graph pattern).perform =
          { store with languages } := by
        have hdelete : Store.delete graph pattern store =
            (.error (.query (.filter fault)), { store with languages }) := by
          unfold Store.delete
          rw [bind_error hrun]
        exact congrArg Prod.snd hdelete
      rw [hafter, Contents.apply, GraphSets.remove_of_error hbuilt]
      exact ⟨⟨h.config_eq, h.ordered, h.visible, h.writer, hsound⟩, nofun⟩
  | add | addQuad | addAll | clear | clearAll | commit => exact hsucceeds hadds

/-- **A run of commands**, each of which may fail, keeps the store and the sets in step. -/
theorem Store.afterAll_refines (hids : Set.InjOn (fun quad : Quad => quad.record.id) known)
    {commands : List StoreCommand} (hadds : ∀ command ∈ commands, command.Adds known)
    {settled : Bool} (hclears : ClearsSettled settled commands)
    (h : store.Refines known config contents) (hsettled : settled = true → store.Settled) :
    (store.afterAll commands).Refines known config (contents.run commands) := by
  induction commands generalizing settled contents store with
  | nil => exact h
  | cons command rest ih =>
    obtain ⟨hclear, hrest⟩ := hclears.cons
    obtain ⟨hnext, hcommitted⟩ := StoreCommand.after_refines h hids
      (hadds command List.mem_cons_self) fun hcommand => hsettled (hclear hcommand)
    exact ih (fun other hother => hadds other (List.mem_cons_of_mem command hother)) hrest hnext
      fun hcommand => hcommitted (of_decide_eq_true hcommand)

end

/-! ## What is asked of a store -/

/-- **A store compares values** when it is asked for a statement.  Take a store on an index that holds
certain sets of statements, and any history of commands, which may fail, and which add such quads only
whose records have different identifiers.  Asked for a statement whose written forms are short enough,
the store has it just when the set of the last commit holds one of the same value; only if the object is
a literal of a kind with values that denotes none, the store refuses to answer. -/
theorem contains_compares_values {known : Set Quad}
    (hids : Set.InjOn (fun quad : Quad => quad.record.id) known) {config : StoreConfig}
    {index : Index} {sets : GraphSets} (hordered : index.Ordered)
    (hindex : RecordsOf known sets index.records) {locked : Bool} {store : Store}
    (hstore : Store.create config index locked = .ok store) {commands : List StoreCommand}
    (hadds : ∀ command ∈ commands, command.Adds known) (hclears : ClearsSettled true commands)
    (graph : GraphName) {triple : Triple} (htriple : triple.WellFormed)
    (hkeys : ∀ text ∈ triple.searchTexts graph, isKey text = true) :
    let shown := ((⟨sets, sets⟩ : Contents).run (if locked then [] else commands)).shown graph
    let answer := (Store.contains graph triple (store.afterAll commands)).1
    (triple.object.Askable →
      ∃ found, answer = .ok found ∧ (found = true ↔ ∃ stored ∈ shown, stored.SameValue triple)) ∧
    (¬ triple.object.Askable → ∃ l, triple.object = .literal l ∧
      answer = .error (.query (.filter (.invalidValue l.kind l.lexical)))) := by
  intro shown answer
  obtain ⟨hvisible, hlanguages⟩ : RecordsOf known
      ((⟨sets, sets⟩ : Contents).run (if locked then [] else commands)).shown
        (store.afterAll commands).visible.records ∧ (store.afterAll commands).languages.Sound := by
    cases locked with
    | true =>
      have hfixed := (Store.invariant_fixed known index).afterAll hadds (Store.fixed_create hstore)
      rw [hfixed.visible]
      exact ⟨hindex, hfixed.languages⟩
    | false =>
      obtain ⟨hrefines, hsettled⟩ := Store.refines_create hordered hindex hstore
      have hafter := Store.afterAll_refines hids hadds hclears hrefines fun _ => hsettled
      exact ⟨hafter.visible, hafter.languages⟩
  exact ⟨fun haskable => Store.contains_of_recordsOf hvisible hlanguages htriple hkeys haskable,
    fun hnot => Store.contains_of_not_askable hlanguages hnot⟩

/-- A store with one number, after a deletion that failed.  It is found in another spelling, but not as
a text, and for a number that is none there is no answer. -/
theorem contains_compares_values_spelling :
    let number (lexical : String) : Triple :=
      ⟨.iri ⟨"s"⟩, ⟨"p"⟩, .literal (.ofDatatype lexical Xsd.integer)⟩
    let text : Triple := ⟨.iri ⟨"s"⟩, ⟨"p"⟩, .literal (.simple "5")⟩
    let commands : List StoreCommand :=
      [.add .default (number "5"), .commit, .delete .default (number "many").toPattern]
    ∃ store, Store.create {} .empty false = .ok store ∧
      (Store.contains .default (number "05") (store.afterAll commands)).1 = .ok true ∧
      (Store.contains .default text (store.afterAll commands)).1 = .ok false ∧
      (Store.contains .default (number "many") (store.afterAll commands)).1 =
        .error (.query (.filter (.invalidValue .numeric "many"))) := by
  intro number text commands
  let known : Set Quad := {⟨number "5", .default⟩}
  have hids : Set.InjOn (fun quad : Quad => quad.record.id) known := Set.injOn_singleton _ _
  have hadds : ∀ command ∈ commands, command.Adds known := by
    simp [commands, known, StoreCommand.Adds]
  have hclears : ClearsSettled true commands := by
    simp [commands, ClearsSettled]
  have hshown : ((⟨fun _ => ∅, fun _ => ∅⟩ : Contents).run commands).shown .default =
      {number "5"} := by
    decide +kernel
  obtain ⟨store, hstore⟩ : ∃ store, Store.create {} .empty false = .ok store := ⟨_, rfl⟩
  have hkeys : ∀ triple ∈ [number "05", text, number "many"],
      ∀ word ∈ triple.searchTexts .default, isKey word = true := by
    decide +kernel
  have hwellFormed : ∀ triple ∈ [number "05", text, number "many"], triple.WellFormed := by
    have hnumber : ∀ lexical, (number lexical).WellFormed := by
      refine fun lexical => ⟨trivial, ?_⟩
      simp only [number, Literal.ofDatatype]
      split <;> trivial
    simp only [List.forall_mem_cons, List.not_mem_nil, false_implies, implies_true, and_true]
    exact ⟨hnumber "05", ⟨trivial, trivial⟩, hnumber "many"⟩
  have hanswer := fun triple hmem =>
    contains_compares_values hids Index.ordered_empty (RecordsOf.nil known) hstore hadds hclears
      .default (hwellFormed triple hmem) (hkeys triple hmem)
  have hfound : ∀ triple ∈ [number "05", text, number "many"], triple.object.Askable →
      (Store.contains .default triple (store.afterAll commands)).1 =
        .ok (decide ((number "5").SameValue triple)) := by
    intro triple hmem haskable
    obtain ⟨found, hcontains, hiff⟩ := (hanswer triple hmem).1 haskable
    have hshown' : ((⟨fun _ => ∅, fun _ => ∅⟩ : Contents).run
        (if false = true then [] else commands)).shown .default = {number "5"} := hshown
    rw [hshown'] at hiff
    have hsame : found = decide ((number "5").SameValue triple) := by
      rw [Bool.eq_iff_iff, hiff, decide_eq_true_iff]
      simp
    rw [hcontains, hsame]
  refine ⟨store, hstore, ?_, ?_, ?_⟩
  · have hsame : decide ((number "5").SameValue (number "05")) = true := by decide +kernel
    rw [hfound (number "05") (by simp) (by decide +kernel), hsame]
  · have hsame : decide ((number "5").SameValue text) = false := by decide +kernel
    rw [hfound text (by simp) (by decide +kernel), hsame]
  · obtain ⟨l, hobject, hcontains⟩ := (hanswer (number "many") (by simp)).2 (by decide +kernel)
    rw [hcontains]
    cases hobject
    decide +kernel

/-- **A statement is not what is asked for**: one that a graph has not is found in it, being of the same
value as one that it has; and one that it has cannot be asked for, having no value. -/
theorem contains_not_exact :
    let number (lexical : String) : Triple :=
      ⟨.iri ⟨"s"⟩, ⟨"p"⟩, .literal (.ofDatatype lexical Xsd.integer)⟩
    let commands (lexical : String) : List StoreCommand := [.add .default (number lexical), .commit]
    let shown (lexical : String) : Finset Triple :=
      ((⟨fun _ => ∅, fun _ => ∅⟩ : Contents).run (commands lexical)).shown .default
    ∃ store, Store.create {} .empty false = .ok store ∧
      number "05" ∉ shown "5" ∧
      (Store.contains .default (number "05") (store.afterAll (commands "5"))).1 = .ok true ∧
      number "many" ∈ shown "many" ∧
      (Store.contains .default (number "many") (store.afterAll (commands "many"))).1 =
        .error (.query (.filter (.invalidValue .numeric "many"))) := by
  intro number commands shown
  refine ⟨_, rfl, ?_, ?_, ?_, ?_⟩ <;> decide +kernel

end QuadStore
