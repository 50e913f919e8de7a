import Mathlib.Data.List.Chain
import Mathlib.Data.List.Nodup
import Mathlib.Data.List.Perm.Basic
import StageChain.Graph.Chain

/-!
# Where a walk leads

`Graph.walk` follows the edges from a node and takes every node that it meets out of the nodes that
remain. `walk_eq_ok_iff` says exactly when it ends and with what: the order is the duplicate-free
list of remaining nodes that `Follows` the edges from the first node to one without an edge out.
-/

namespace StageChain.Graph

variable {edges : List Edge} {remaining order left : List String} {current : String}

/-- Each node of an order leads to the one after it, and the last one leads nowhere. -/
structure Follows (edges : List Edge) (order : List String) : Prop where
  leads : order.IsChain fun a b => successor? edges a = some b
  stops : ∀ last, order.getLast? = some last → successor? edges last = none

namespace Follows

/-- A single node is followed when it leads nowhere. -/
theorem singleton_iff : Follows edges [current] ↔ successor? edges current = none := by
  constructor
  · intro h
    exact h.stops current rfl
  · intro h
    refine ⟨.singleton _, fun last hlast => ?_⟩
    obtain rfl : current = last := by simpa using hlast
    exact h

/-- A longer order is followed when its first node leads to the second and the rest is followed. -/
theorem cons_cons_iff {next : String} :
    Follows edges (current :: next :: order) ↔
      successor? edges current = some next ∧ Follows edges (next :: order) := by
  constructor
  · intro h
    obtain ⟨hnext, hleads⟩ := List.isChain_cons_cons.1 h.leads
    exact ⟨hnext, hleads, fun last hlast => h.stops last (by simpa using hlast)⟩
  · intro ⟨hnext, h⟩
    exact ⟨.cons_cons hnext h.leads, fun last hlast => h.stops last (by simpa using hlast)⟩

/-- An order that is followed from a node without an edge out is that node. -/
theorem eq_singleton (h : Follows edges order) (hhead : order.head? = some current)
    (hsucc : successor? edges current = none) : order = [current] := by
  obtain ⟨rest, rfl⟩ := List.head?_eq_some_iff.1 hhead
  cases rest with
  | nil => rfl
  | cons next rest =>
      have hnext := (cons_cons_iff.1 h).1
      rw [hsucc] at hnext
      cases hnext

/-- An order that is followed from a node with an edge out goes on at the end of that edge. -/
theorem eq_cons {next : String} (h : Follows edges order) (hhead : order.head? = some current)
    (hsucc : successor? edges current = some next) :
    ∃ rest, order = current :: next :: rest ∧ Follows edges (next :: rest) := by
  obtain ⟨rest, rfl⟩ := List.head?_eq_some_iff.1 hhead
  cases rest with
  | nil =>
      rw [singleton_iff.1 h] at hsucc
      cases hsucc
  | cons second rest =>
      obtain ⟨hsecond, hrest⟩ := cons_cons_iff.1 h
      obtain rfl : second = next := Option.some.inj (hsecond.symm.trans hsucc)
      exact ⟨rest, rfl, hrest⟩

end Follows

theorem walk_of_not_mem (h : current ∉ remaining) :
    walk edges remaining current = .error (.revisited current) := by
  rw [walk, dif_neg h]

theorem walk_of_none (h : current ∈ remaining) (hsucc : successor? edges current = none) :
    walk edges remaining current = .ok ([current], remaining.erase current) := by
  rw [walk, dif_pos h]
  simp only [hsucc]

theorem walk_of_some {next : String} (h : current ∈ remaining)
    (hsucc : successor? edges current = some next) :
    walk edges remaining current =
      (walk edges (remaining.erase current) next).map fun found =>
        (current :: found.1, found.2) := by
  rw [walk, dif_pos h]
  simp only [hsucc]

/-- A walk ends with an order exactly when that order follows the edges through remaining nodes
without meeting one twice; the other nodes are left. -/
theorem walk_eq_ok_iff {remaining order left : List String} {current : String}
    (hremaining : remaining.Nodup) :
    walk edges remaining current = .ok (order, left) ↔
      Follows edges order ∧ order.head? = some current ∧ order.Nodup ∧ order ⊆ remaining ∧
        left = remaining.diff order := by
  induction remaining, current using walk.induct edges generalizing order left with
  | case1 remaining current hmem hsucc =>
      rw [walk_of_none hmem hsucc]
      constructor
      · intro h
        cases h
        exact ⟨Follows.singleton_iff.2 hsucc, rfl, List.nodup_singleton _,
          by simpa using hmem, by simp⟩
      · rintro ⟨hfollows, hhead, -, -, rfl⟩
        rw [hfollows.eq_singleton hhead hsucc]
        simp
  | case2 remaining current hmem next hsucc ih =>
      have herase := hremaining.erase current
      rw [walk_of_some hmem hsucc]
      constructor
      · intro h
        cases hrest : walk edges (remaining.erase current) next with
        | error fault =>
            rw [hrest] at h
            cases h
        | ok found =>
            rw [hrest] at h
            cases h
            obtain ⟨hfollows, hhead, hnodup, hsub, hleft⟩ := (ih herase).1 hrest
            obtain ⟨tail, htail⟩ := List.head?_eq_some_iff.1 hhead
            rw [htail] at hfollows
            -- the rest is walked without the node, so it is not met again
            have hnotmem : current ∉ found.1 := fun hin => hremaining.not_mem_erase (hsub hin)
            refine ⟨?_, rfl, List.nodup_cons.2 ⟨hnotmem, hnodup⟩, ?_, ?_⟩
            · rw [htail]
              exact Follows.cons_cons_iff.2 ⟨hsucc, hfollows⟩
            · exact List.cons_subset.2 ⟨hmem, List.Subset.trans hsub List.erase_subset⟩
            · rw [List.diff_cons, hleft]
      · rintro ⟨hfollows, hhead, hnodup, hsub, rfl⟩
        obtain ⟨tail, rfl, hrest⟩ := hfollows.eq_cons hhead hsucc
        obtain ⟨hnotmem, hnodup⟩ := List.nodup_cons.1 hnodup
        -- as the order does not repeat the node, it goes on through the nodes that remain then
        have hsub' : next :: tail ⊆ remaining.erase current := fun id hid =>
          (List.mem_erase_of_ne (ne_of_mem_of_not_mem hid hnotmem)).2
            (hsub (List.mem_cons_of_mem _ hid))
        rw [(ih herase).2 ⟨hrest, rfl, hnodup, hsub', rfl⟩]
        simp [Except.map]
  | case3 remaining current hmem =>
      rw [walk_of_not_mem hmem]
      constructor
      · intro h
        cases h
      · rintro ⟨-, hhead, -, hsub, -⟩
        exact absurd (hsub (List.mem_of_mem_head? hhead)) hmem

end StageChain.Graph
