import Mathlib.Data.Set.Card
import Mathlib.Order.Bounds.Basic
import Pinpoint.Message.Basic
import Pinpoint.Proofs.Diagnostic.Macros

/-!
# Ways through the tree of a span

A way is a list of links. `Node.reached?` is the node at its end, `Node.ways` lists the ways that end at a node. There
are as many of them as nodes (`ncard_ways`), and the longest ones are as long as the tree is deep (`isGreatest_depth`).
-/

namespace Pinpoint

namespace Node

def linked? (n : Node) : Link → Option Node
  | .invocation => n.invocation
  | .definition => n.definition

/-- The node at the end of a way. -/
def reached? (n : Node) : List Link → Option Node
  | [] => some n
  | l :: way => (n.linked? l).bind (·.reached? way)

/-- The number of nodes. -/
def size : Node → Nat
  | ⟨_, _, invocation, definition⟩ =>
    1 + (match invocation with | none => 0 | some n => n.size) + (match definition with | none => 0 | some n => n.size)

/-- The ways that end at a node, each once. -/
def ways : Node → List (List Link)
  | ⟨_, _, invocation, definition⟩ =>
    [] :: (match invocation with | none => [] | some n => n.ways.map (.invocation :: ·)) ++
      (match definition with | none => [] | some n => n.ways.map (.definition :: ·))

/-- A node is settled once those at its links are. -/
theorem linked_induction {P : Node → Prop} (h : ∀ n : Node, (∀ l m, n.linked? l = some m → P m) → P n) : ∀ n, P n
  | ⟨site, isPrimary, invocation, definition⟩ => by
    refine h _ fun l m hm => ?_
    cases l with
    | invocation =>
      obtain rfl : invocation = some m := hm
      exact linked_induction h m
    | definition =>
      obtain rfl : definition = some m := hm
      exact linked_induction h m

theorem size_eq (n : Node) : n.size = 1 + (n.invocation.map size).getD 0 + (n.definition.map size).getD 0 := by
  obtain ⟨_, _, invocation, definition⟩ := n
  cases invocation <;> cases definition <;> rfl

theorem depth_eq (n : Node) :
    n.depth = max ((n.invocation.map (·.depth + 1)).getD 0) ((n.definition.map (·.depth + 1)).getD 0) := by
  obtain ⟨_, _, invocation, definition⟩ := n
  cases invocation <;> cases definition <;> rfl

/-- The ways from a node are the empty one and those that begin with one of its links. -/
theorem ways_eq (n : Node) :
    n.ways = [] :: (n.invocation.map (·.ways.map (.invocation :: ·))).getD [] ++
      (n.definition.map (·.ways.map (.definition :: ·))).getD [] := by
  obtain ⟨_, _, invocation, definition⟩ := n
  cases invocation <;> cases definition <;> rfl

theorem length_ways (n : Node) : n.ways.length = n.size := by
  induction n using linked_induction with
  | _ n ih =>
    rw [ways_eq, size_eq]
    have hlink : ∀ l, (((n.linked? l).map (·.ways.map (l :: ·))).getD []).length = ((n.linked? l).map size).getD 0 := by
      intro l
      cases hl : n.linked? l with
      | none => rfl
      | some m => simpa using ih l m hl
    have hinvocation := hlink .invocation
    have hdefinition := hlink .definition
    simp only [linked?] at hinvocation hdefinition
    rw [List.length_append, List.length_cons, hinvocation, hdefinition]
    omega

theorem mem_ways_iff {n : Node} {way : List Link} : way ∈ n.ways ↔ (n.reached? way).isSome := by
  induction way generalizing n with
  | nil => rw [ways_eq]; simp [reached?]
  | cons l way ih =>
    have hlink : ∀ k, l :: way ∈ ((n.linked? k).map (·.ways.map (k :: ·))).getD [] ↔
        k = l ∧ ((n.linked? k).bind (·.reached? way)).isSome := by
      intro k
      cases hk : n.linked? k with
      | none => simp
      | some m =>
        constructor
        · intro hway
          obtain ⟨_, hway, heq⟩ := List.mem_map.mp hway
          cases heq
          exact ⟨rfl, ih.mp hway⟩
        · rintro ⟨rfl, hway⟩
          exact List.mem_map.mpr ⟨way, ih.mpr hway, rfl⟩
    have hinvocation := hlink .invocation
    have hdefinition := hlink .definition
    simp only [linked?] at hinvocation hdefinition
    rw [ways_eq, reached?, List.cons_append, List.mem_cons, List.mem_append, hinvocation, hdefinition]
    cases l <;> simp [linked?]

theorem nodup_ways (n : Node) : n.ways.Nodup := by
  induction n using linked_induction with
  | _ n ih =>
    have hlink : ∀ l, (((n.linked? l).map (·.ways.map (l :: ·))).getD []).Nodup := by
      intro l
      cases hl : n.linked? l with
      | none => exact List.nodup_nil
      | some m => exact (ih l m hl).map fun _ _ h => List.tail_eq_of_cons_eq h
    have hhead : ∀ l, ∀ way ∈ ((n.linked? l).map (·.ways.map (l :: ·))).getD [], way.head? = some l := by
      intro l way hway
      cases hl : n.linked? l with
      | none => rw [hl] at hway; cases hway
      | some m =>
        rw [hl] at hway
        obtain ⟨_, -, rfl⟩ := List.mem_map.mp hway
        rfl
    have hinvocation := hhead .invocation
    have hdefinition := hhead .definition
    rw [ways_eq, List.cons_append, List.nodup_cons]
    refine ⟨fun hnil => ?_, List.nodup_append.mpr ⟨hlink .invocation, hlink .definition, ?_⟩⟩
    · rcases List.mem_append.mp hnil with hnil | hnil
      · cases hinvocation _ hnil
      · cases hdefinition _ hnil
    · rintro a ha b hb rfl
      cases (hinvocation _ ha).symm.trans (hdefinition _ hb)

/-- There are as many nodes as ways that end at one. -/
theorem ncard_ways (n : Node) : {way | (n.reached? way).isSome}.ncard = n.size := by
  have hset : {way | (n.reached? way).isSome} = (n.ways.toFinset : Set (List Link)) := by
    ext way
    simp [mem_ways_iff]
  rw [hset, Set.ncard_coe_finset, List.toFinset_card_of_nodup n.nodup_ways, length_ways]

theorem depth_lt_of_linked {n m : Node} {l : Link} (h : n.linked? l = some m) : m.depth < n.depth := by
  rw [depth_eq n]
  cases l with
  | invocation => rw [linked?] at h; simp [h]
  | definition => rw [linked?] at h; simp [h]

/-- The longest way is as long as the tree is deep. -/
theorem isGreatest_depth (n : Node) : IsGreatest (List.length '' {way | (n.reached? way).isSome}) n.depth := by
  constructor
  · induction n using linked_induction with
    | _ n ih =>
      have hlink : ∀ l m, n.linked? l = some m → m.depth + 1 = n.depth →
          n.depth ∈ List.length '' {way | (n.reached? way).isSome} := by
        intro l m hm hdepth
        obtain ⟨way, hway, hlength⟩ := ih l m hm
        exact ⟨l :: way, by simpa [reached?, hm] using hway, by rw [List.length_cons, hlength, hdepth]⟩
      cases hinvocation : n.invocation with
      | none =>
        cases hdefinition : n.definition with
        | none => exact ⟨[], rfl, by simp [depth_eq n, hinvocation, hdefinition]⟩
        | some m => exact hlink .definition m hdefinition (by simp [depth_eq n, hinvocation, hdefinition])
      | some m =>
        cases hdefinition : n.definition with
        | none => exact hlink .invocation m hinvocation (by simp [depth_eq n, hinvocation, hdefinition])
        | some k =>
          rcases le_total k.depth m.depth with hle | hle
          · exact hlink .invocation m hinvocation (by simp [depth_eq n, hinvocation, hdefinition, hle])
          · exact hlink .definition k hdefinition (by simp [depth_eq n, hinvocation, hdefinition, hle])
  · rintro _ ⟨way, hway, rfl⟩
    induction way generalizing n with
    | nil => exact Nat.zero_le _
    | cons l way ih =>
      obtain ⟨_, hend⟩ := Option.isSome_iff_exists.mp hway
      obtain ⟨m, hm, hend⟩ := Option.bind_eq_some_iff.mp hend
      have hle := ih m (Option.isSome_iff_exists.mpr ⟨_, hend⟩)
      exact Nat.lt_of_le_of_lt hle (depth_lt_of_linked hm)

end Node

end Pinpoint
