/-
How visitors dispatch, and what they inherit.

A table is written when a layer is put on a chain, from the tables below it and from the
methods of the layer. Read back, it says what the methods of the whole chain say: the most
derived layer that claims a tag decides, and in it the later method
(`Made.claim?_eq_some_iff`). The body is looked up by name when the tag is met, and comes from
the most derived layer with that name (`Made.body?_eq_some_iff`). Since the layer that claims
a tag has a method of the name, a tag that is handled always has a body (`Made.exists_body`).

What methods do is left open. A step of a visit is given what runs a method and what goes on
with a part of the tree, and either may fail or have effects (`Chain.step`). Any visit that
goes on with itself follows the documented order (`Chain.follows_of_step`), and the visit of
reports is one (`Chain.visit_eq_step`).

A family only grows. Whatever is derived later, the chains that are there stay what they are
(`Family.Grows.lookup`).
-/
import Schemata.Proofs.Keyed
import Schemata.Tree.Chain

namespace Schemata.Tree

/-! ## Tables -/

namespace Handlers

theorem find?_update (handlers entries : Handlers) (tag : String) :
    (handlers.update entries).find? (·.1 == tag) =
      (entries.reverse.find? (·.1 == tag)).or (handlers.find? (·.1 == tag)) :=
  find?_foldl_putBy _ _ _ _

theorem nodup_update {handlers : Handlers} (h : (handlers.map (·.1)).Nodup)
    (entries : Handlers) :
    ((handlers.update entries).map (·.1)).Nodup :=
  nodup_foldl_putBy _ h

/-- Of the methods that claim a tag the last one is found. -/
theorem find?_claimed (methods : List Method) (tag : String) :
    ((claimed methods).reverse.find? (·.1 == tag)).map (·.2) =
      (methods.reverse.find? (·.tags.contains tag)).map (·.name) := by
  induction methods with
  | nil => rfl
  | cons m methods ih =>
    have own : ((m.tags.map fun t => (t, m.name)).reverse.find? (·.1 == tag)).map (·.2) =
        ([m].find? (·.tags.contains tag)).map (·.name) := by
      rw [← List.map_reverse, List.find?_map, Option.map_map, List.find?_singleton]
      by_cases h : tag ∈ m.tags
      · have found : (m.tags.reverse.find? (· == tag)).isSome := by simpa using h
        obtain ⟨t, ht⟩ := Option.isSome_iff_exists.1 found
        simp [Function.comp_def, ht, h]
      · have missing : m.tags.reverse.find? (· == tag) = none := by
          rw [List.find?_eq_none]
          intro t ht same
          exact h (beq_iff_eq.1 same ▸ List.mem_reverse.1 ht)
        simp [Function.comp_def, missing, h]
    have split :
        claimed (m :: methods) = (m.tags.map fun t => (t, m.name)) ++ claimed methods := rfl
    rw [split, List.reverse_append, List.find?_append, Option.map_or, ih, own,
      List.reverse_cons, List.find?_append, Option.map_or]

end Handlers

namespace Chain

/-- A chain that is made by putting layers on one another. -/
inductive Made : Chain → Prop
  | root : Made []
  | derived {c : Chain} (h : Made c) (name : String) (body : List Method) :
    Made (c.derive name body)

variable {c : Chain} {tag name : String}

theorem nodup_inherited (c : Chain) : (c.inherited.map (·.1)).Nodup := by
  induction c with
  | nil => exact List.nodup_nil
  | cons l c ih =>
    show (((inherited c).update l.handlers).map (·.1)).Nodup
    exact Handlers.nodup_update ih l.handlers

/-- What a chain hands on is the table of its most derived layer. -/
theorem Made.find?_inherited (h : Made c) (tag : String) :
    c.inherited.find? (·.1 == tag) = c.handlers.find? (·.1 == tag) := by
  cases h with
  | root => rfl
  | @derived c h name body =>
    have table : (c.derive name body).handlers =
        c.inherited.update (.claimed (lastByKey (·.name) body)) := rfl
    have distinct : ((c.derive name body).handlers.map (·.1)).Nodup :=
      Handlers.nodup_update c.nodup_inherited _
    have handedOn : (c.derive name body).inherited =
        c.inherited.update (c.derive name body).handlers := rfl
    rw [handedOn, Handlers.find?_update, find?_reverse_of_nodup _ distinct]
    -- the table has taken up all that was below it
    rw [table, Handlers.find?_update, Option.or_assoc, Option.or_self]

/-- A new layer decides on the tags that it claims, and leaves the others. -/
theorem Made.claim?_derive (h : Made c) (body : List Method) :
    (c.derive name body).claim? tag =
      (((lastByKey (·.name) body).reverse.find? (·.tags.contains tag)).map (·.name)).or
        (c.claim? tag) := by
  have table : (c.derive name body).handlers =
      c.inherited.update (.claimed (lastByKey (·.name) body)) := rfl
  rw [claim?, table, Handlers.find?_update, Option.map_or, Handlers.find?_claimed,
    h.find?_inherited, claim?]

end Chain

/-! ## Claims and bodies -/

/-- A method of the layer claims the tag, and no later one does. -/
def Layer.Claims (l : Layer) (tag name : String) : Prop :=
  ∃ before m after, l.methods = before ++ m :: after ∧ m.name = name ∧ tag ∈ m.tags ∧
    ∀ n ∈ after, tag ∉ n.tags

theorem Layer.claims_iff {l : Layer} {tag name : String} :
    (l.methods.reverse.find? (·.tags.contains tag)).map (·.name) = some name ↔
      l.Claims tag name := by
  rw [Option.map_eq_some_iff]
  simp only [List.find?_eq_some_iff_append]
  constructor
  · rintro ⟨m, ⟨claims, after, before, split, later⟩, rfl⟩
    refine ⟨before.reverse, m, after.reverse, ?_,
      rfl, by simpa using claims, by simpa using later⟩
    simpa using congrArg List.reverse split
  · rintro ⟨before, m, after, split, rfl, claims, later⟩
    exact ⟨m, ⟨by simpa using claims, after.reverse, before.reverse, by simp [split],
      by simpa using later⟩, rfl⟩

namespace Chain

/-- The most derived layer that claims the tag registers the name for it. -/
def Registers (c : Chain) (tag name : String) : Prop :=
  ∃ above l below, c = above ++ l :: below ∧ l.Claims tag name ∧
    ∀ k ∈ above, ∀ m ∈ k.methods, tag ∉ m.tags

/-- The most derived layer with a method of the name has this method. -/
def Gives (c : Chain) (name : String) (l : Layer) (m : Method) : Prop :=
  ∃ above below, c = above ++ l :: below ∧ m ∈ l.methods ∧ m.name = name ∧
    ∀ k ∈ above, ∀ n ∈ k.methods, n.name ≠ name

variable {c : Chain} {tag name : String}

theorem Made.claim?_eq_findSome? (h : Made c) :
    c.claim? tag =
      c.findSome? fun l => (l.methods.reverse.find? (·.tags.contains tag)).map (·.name) := by
  induction h with
  | root => rfl
  | @derived c h name body ih =>
    rw [h.claim?_derive, ih, derive, List.findSome?_cons]
    cases ((lastByKey (·.name) body).reverse.find? (·.tags.contains tag)).map (·.name) <;> rfl

/-- The table says what the methods say. -/
theorem Made.claim?_eq_some_iff (h : Made c) :
    c.claim? tag = some name ↔ c.Registers tag name := by
  rw [h.claim?_eq_findSome?, List.findSome?_eq_some_iff]
  simp only [Layer.claims_iff, Option.map_eq_none_iff, List.find?_eq_none, List.mem_reverse,
    List.contains_iff_mem]
  constructor
  · rintro ⟨above, l, below, split, claims, later⟩
    exact ⟨above, l, below, split, claims, later⟩
  · rintro ⟨above, l, below, split, claims, later⟩
    exact ⟨above, l, below, split, claims, later⟩

theorem Made.nodup_names (h : Made c) : ∀ l ∈ c, (l.methods.map (·.name)).Nodup := by
  induction h with
  | root => simp
  | derived _ name body ih =>
    exact List.forall_mem_cons.2 ⟨nodup_lastByKey Method.name body, ih⟩

theorem Made.body?_eq_some_iff (h : Made c) {l : Layer} {m : Method} :
    c.body? name = some (l, m) ↔ c.Gives name l m := by
  unfold body?
  rw [List.findSome?_eq_some_iff]
  simp only [Option.map_eq_some_iff, Option.map_eq_none_iff, Prod.mk.injEq, Layer.method?]
  constructor
  · rintro ⟨above, k, below, split, ⟨n, found, rfl, rfl⟩, later⟩
    refine ⟨above, below, split,
      List.mem_of_find?_eq_some found, by simpa using List.find?_some found,
      ?_⟩
    simpa [List.find?_eq_none] using later
  · rintro ⟨above, below, split, hm, rfl, later⟩
    have distinct := h.nodup_names l (by simp [split])
    refine ⟨above, l, below, split,
      ⟨m, (mem_iff_find? Method.name distinct).1 hm, rfl, rfl⟩, ?_⟩
    simpa [List.find?_eq_none] using later

/-- A tag is handled if a layer claims it. -/
theorem Made.handles_iff (h : Made c) :
    c.handles tag = true ↔ ∃ l ∈ c, ∃ m ∈ l.methods, tag ∈ m.tags := by
  rw [handles, h.claim?_eq_findSome?, List.findSome?_isSome_iff]
  simp

/-- The name that a tag leads to has a body. -/
theorem Made.exists_body (h : Made c) (registered : c.Registers tag name) :
    ∃ l m, c.Gives name l m := by
  obtain ⟨above, l, below, split, ⟨before, m, after, own, named, -, -⟩, -⟩ := registered
  have known : (c.body? name).isSome := by
    rw [body?, List.findSome?_isSome_iff]
    refine ⟨l, by simp [split], ?_⟩
    rw [Option.isSome_map, Layer.method?, List.find?_isSome]
    exact ⟨m, by simp [own], by simpa using named⟩
  obtain ⟨⟨k, n⟩, found⟩ := Option.isSome_iff_exists.1 known
  exact ⟨k, n, h.body?_eq_some_iff.1 found⟩

theorem Made.answer?_of_registers (h : Made c) {l : Layer} {m : Method}
    (registered : c.Registers tag name) (given : c.Gives name l m) :
    c.answer? tag = some (l, m) := by
  rw [answer?, h.claim?_eq_some_iff.2 registered, Option.bind_some,
    h.body?_eq_some_iff.2 given]

theorem Made.answer?_eq_none (h : Made c)
    (unclaimed : ∀ l ∈ c, ∀ m ∈ l.methods, tag ∉ m.tags) :
    c.answer? tag = none := by
  have unhandled : ¬ c.handles tag = true := by
    rw [h.handles_iff]
    rintro ⟨l, hl, m, hm, claims⟩
    exact unclaimed l hl m hm claims
  rw [answer?, Option.not_isSome_iff_eq_none.1 unhandled, Option.bind_none]

end Chain

/-! ## Visits -/

namespace Chain

section Steps

variable {M : Type → Type} [Monad M]

/-- One step of a visit: `run` runs a method, and `self` goes on with a part of the tree. -/
def step (c : Chain) (run : Layer → Method → Value → Value → M Value)
    (self : Value → Value → M Value) (context : Value) : Value → M Value
  | .tuple [t, payload] =>
    match t.word? with
    | none => pure (.tuple [t, payload])
    | some tag =>
      match c.answer? tag with
      | some (l, m) => run l m context payload
      | none => self context payload
  | .list xs => Value.list <$> xs.mapM (self context)
  | v => pure v

/-- A visit follows the documented order: a pair whose tag is claimed is what its method makes
of it, a list is visited item by item in the same context, any other tagged pair becomes its
payload, which is visited, and all else stays. -/
structure Follows (c : Chain) (run : Layer → Method → Value → Value → M Value)
    (visit : Value → Value → M Value) : Prop where
  claimed : ∀ t tag name l m context payload, t.word? = some tag → c.Registers tag name →
    c.Gives name l m → visit context (.tuple [t, payload]) = run l m context payload
  items : ∀ context xs, visit context (.list xs) = Value.list <$> xs.mapM (visit context)
  unclaimed : ∀ t tag context payload, t.word? = some tag →
    (∀ l ∈ c, ∀ m ∈ l.methods, tag ∉ m.tags) →
    visit context (.tuple [t, payload]) = visit context payload
  other : ∀ context v, v.tagged? = none → (∀ xs, v ≠ .list xs) → v ≠ .loop true →
    visit context v = pure v

/-- Whatever methods do: a visit that goes on with itself follows the documented order. -/
theorem follows_of_step {c : Chain} (h : Made c)
    {run : Layer → Method → Value → Value → M Value}
    {visit : Value → Value → M Value}
    (steps : ∀ context v, visit context v = c.step run visit context v) :
      c.Follows run visit where
  claimed := by
    intro t tag name l m context payload word registered given
    rw [steps, step, word]
    simp only [h.answer?_of_registers registered given]
  items := fun context xs => steps context (.list xs)
  unclaimed := by
    intro t tag context payload word unclaimed
    rw [steps, step, word]
    simp only [h.answer?_eq_none unclaimed]
  other := by
    intro context v untagged noList noLoop
    rw [steps]
    unfold step
    split
    · rename_i t payload
      have wordless : t.word? = none := by simpa [Value.tagged?] using untagged
      rw [wordless]
    · rename_i xs
      exact absurd rfl (noList xs)
    · rfl

end Steps

/-- What a method of a chain makes of its payload. -/
def reports (c : Chain) (l : Layer) (m : Method) (context payload : Value) : Value :=
  report l m context (c.visit (handedOn m context) payload)

theorem visitItems_eq_map (c : Chain) (context : Value) (xs : List Value) :
    c.visitItems context xs = xs.map (c.visit context) := by
  induction xs with
  | nil => rfl
  | cons x xs ih => rw [visitItems, ih, List.map_cons]

/-- The visit of reports goes on with itself. -/
theorem visit_eq_step (c : Chain) (context v : Value) :
    c.visit context v = c.step (M := Id) c.reports c.visit context v := by
  unfold step
  split
  · rename_i t payload
    rw [visit]
    cases t.word? with
    | none => rfl
    | some tag => cases c.answer? tag <;> rfl
  · rename_i xs
    rw [visit, visitItems_eq_map]
    exact congrArg Value.list (List.idRun_mapM).symm
  · rename_i noPair noList
    rw [visit]
    · rfl
    · exact noPair
    · exact noList

end Chain

/-! ## Families -/

namespace Family

/-- A family that grows out of another when chains of these names are defined, the last one
first. -/
inductive Grows (f : Family) : List String → Family → Prop
  | same : Grows f [] f
  | defined {names : List String} {g g' : Family} {name parent : String} {body : List Method}
    (h : Grows f names g) (made : g.define? name parent body = some g') :
      Grows f (name :: names) g'

theorem define?_eq_some_iff {f g : Family} {name parent : String} {body : List Method} :
    f.define? name parent body = some g ↔
      ∃ c, f.lookup parent = some c ∧ (name, c.derive name body) :: f = g := by
  rw [define?, Option.map_eq_some_iff]

theorem mem_of_lookup {f : Family} {name : String} {c : Chain} (h : f.lookup name = some c) :
    (name, c) ∈ f := by
  obtain ⟨before, after, rfl, -⟩ := List.lookup_eq_some_iff.1 h
  simp

variable {f g : Family} {names : List String} {name : String} {c : Chain}

/-- What was defined stays. -/
theorem Grows.subset (h : Grows f names g) : f ⊆ g := by
  induction h with
  | same => exact List.Subset.refl f
  | defined _ made ih =>
    obtain ⟨c, -, rfl⟩ := define?_eq_some_iff.1 made
    exact List.subset_cons_of_subset _ ih

/-- A name that is not defined anew means what it meant. -/
theorem Grows.lookup (h : Grows f names g) (old : name ∉ names) :
    g.lookup name = f.lookup name := by
  induction h with
  | same => rfl
  | @defined names g _ new _ _ _ made ih =>
    obtain ⟨c, -, rfl⟩ := define?_eq_some_iff.1 made
    obtain ⟨other, old⟩ := not_or.1 (mt List.mem_cons.2 old)
    rw [List.lookup_cons, beq_false_of_ne other]
    exact ih old

theorem Grows.made (h : Grows root names g) : ∀ e ∈ g, e.2.Made := by
  induction h with
  | same => simpa [root] using Chain.Made.root
  | @defined _ g _ name _ body _ made ih =>
    obtain ⟨c, found, rfl⟩ := define?_eq_some_iff.1 made
    exact List.forall_mem_cons.2 ⟨(ih _ (mem_of_lookup found)).derived name body, ih⟩

end Family

/-- How a visitor dispatches that is defined in a family. It handles a tag exactly if a layer
of it claims the tag, and a tag that is handled has a name and a body. Its visit follows the
documented order, and so does any visit that goes on with itself, whatever the methods do. And
when the family grows, the visitor is still there, under its name if that is not defined
anew. -/
theorem visitors_dispatch {names : List String} {f : Family}
    (grown : Family.Grows .root names f)
    {name : String} {c : Chain} (found : f.lookup name = some c) :
    (∀ tag, c.handles tag = true ↔ ∃ l ∈ c, ∃ m ∈ l.methods, tag ∈ m.tags) ∧
    (∀ tag, c.handles tag = true →
      ∃ method l m, c.Registers tag method ∧ c.Gives method l m) ∧
    c.Follows (M := Id) c.reports c.visit ∧
    (∀ (M : Type → Type) [Monad M] (run : Layer → Method → Value → Value → M Value)
      (visit : Value → Value → M Value),
      (∀ context v, visit context v = c.step run visit context v) → c.Follows run visit) ∧
    ∀ later g, Family.Grows f later g →
      (name, c) ∈ g ∧ (name ∉ later → g.lookup name = some c) := by
  have present := Family.mem_of_lookup found
  have made : c.Made := grown.made _ present
  refine ⟨fun tag => made.handles_iff, ?_, Chain.follows_of_step made c.visit_eq_step, ?_, ?_⟩
  · intro tag handled
    obtain ⟨method, registered⟩ := Option.isSome_iff_exists.1 handled
    have registers := made.claim?_eq_some_iff.1 registered
    obtain ⟨l, m, gives⟩ := made.exists_body registers
    exact ⟨method, l, m, registers, gives⟩
  · intro M _ run visit steps
    exact Chain.follows_of_step made steps
  · intro later g grows
    exact ⟨grows.subset present, fun old => (grows.lookup old).trans found⟩

/-- A visitor of names. -/
def upper : Chain :=
  Chain.derive [] "Upper" [{ name := "visit_name", tags := ["name"], overlay := none }]

/-- A visitor derived from it, with another body for names, and with two methods that claim
sizes. -/
def prefixed : Chain :=
  upper.derive "Prefixed" [
    { name := "visit_name", tags := [], overlay := none },
    { name := "visit_number", tags := ["count", "size"], overlay := none },
    { name := "visit_size", tags := ["size"], overlay := none }]

/-- The tag of names is claimed by the first visitor and answered by the second one; of the
two methods for sizes the later one answers. -/
theorem visitors_dispatch_prefixed :
    ∃ f, Family.Grows .root ["Prefixed", "Upper"] f ∧ f.lookup "Prefixed" = some prefixed ∧
      prefixed.handles "count" = true ∧
      ∃ l ∈ prefixed, ∃ m ∈ l.methods, ∃ n ∈ l.methods,
        l.name = "Prefixed" ∧ m.name = "visit_name" ∧ n.name = "visit_size" ∧
        ∀ context, prefixed.visit context (.list [
            .tagged "new" (.tagged "name" (.text "a")), .tagged "size" (.int 1), .int 2]) =
          .list [prefixed.reports l m context (.text "a"),
            prefixed.reports l n context (.int 1),
            .int 2] := by
  have first : Family.root.define? "Upper" "Visitor" _ =
      some [("Upper", upper), ("Visitor", [])] := rfl
  have second : Family.define? [("Upper", upper), ("Visitor", [])] "Prefixed" "Upper" _ =
      some [("Prefixed", prefixed), ("Upper", upper), ("Visitor", [])] := rfl
  have grown := (Family.Grows.same.defined first).defined second
  have found :
      List.lookup "Prefixed" [("Prefixed", prefixed), ("Upper", upper), ("Visitor", [])] =
      some prefixed := rfl
  obtain ⟨handles, -, follows, -, -⟩ := visitors_dispatch grown found
  refine ⟨_, grown, found, (handles "count").2 ⟨_, .head _, _, .tail _ (.head _), .head _⟩,
    _, .head _, _, .head _, _, .tail _ (.tail _ (.head _)), rfl, rfl, rfl, fun context => ?_⟩
  have ofName : prefixed.Registers "name" "visit_name" :=
    ⟨[_], _, [], rfl, ⟨[], _, [], rfl, rfl, .head _, by simp⟩, by simp [lastByKey, putBy]⟩
  have byName : prefixed.Gives "visit_name" _ _ := ⟨[], _, rfl, .head _, rfl, by simp⟩
  have ofSize : prefixed.Registers "size" "visit_size" :=
    ⟨[], _, _, rfl, ⟨[_, _], _, [], rfl, rfl, .head _, by simp⟩, by simp⟩
  have bySize : prefixed.Gives "visit_size" _ _ :=
    ⟨[], _, rfl, .tail _ (.tail _ (.head _)), rfl, by simp⟩
  have unclaimed : ∀ l ∈ prefixed, ∀ m ∈ l.methods, "new" ∉ m.tags := by
    simp [prefixed, upper, Chain.derive, lastByKey, putBy]
  rw [follows.items]
  show Value.list [_, _, _] = _
  rw [Value.tagged, Value.tagged, Value.tagged, follows.unclaimed _ "new" _ _ rfl unclaimed,
    follows.claimed _ "name" _ _ _ _ _ rfl ofName byName,
    follows.claimed _ "size" _ _ _ _ _ rfl ofSize bySize,
    follows.other _ _ rfl (fun _ => Value.noConfusion) Value.noConfusion]
  rfl

end Schemata.Tree
