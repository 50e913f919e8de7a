import StageChain.Proofs.Graph.Connecting
import StageChain.Proofs.Graph.Normal

/-!
# Which edge stands for a pair of nodes

A loaded graph may have several edges with one signature, and an editor registers one of them. Which
one it is depends on what has been done since, and `standing?` tells it from the edges and the
operations alone: of the loaded edges with the signature the last one stands for it, removing any
edge with the signature leaves none standing, and connecting a pair with the signature makes an edge
that stands if there is none. `get?_registry_performAll` says that this is the edge that the
registry has.

An edge may be there without one standing for it, namely exactly after a removal with no connection
since: `standing?_eq_none_iff`. Where no two loaded edges have the same signature and no new edge
takes the id of another one, that never happens: `Indexed.performAll`.
-/

namespace StageChain

/-- Of the edges with a signature the last one. -/
def Graph.lastWith (graph : Graph) (sig : String) : Option Edge :=
  (graph.edgeList.filter fun edge => edge.signature = sig).getLast?

namespace Editor

variable {editor : Editor} {edit : Edit} {edits : List Edit} {sig id source target : String}
  {graph : Graph} {edge : Edge}

/-- An operation removes an edge with this signature. -/
def Releases (editor : Editor) (edit : Edit) (sig : String) : Prop :=
  ∃ entry ∈ editor.graph.edges.entries, entry.2.signature = sig ∧
    (editor.perform edit).graph.edges.get? entry.1 = none

instance : Decidable (editor.Releases edit sig) :=
  inferInstanceAs (Decidable (∃ entry ∈ editor.graph.edges.entries, _ ∧ _))

/-- The edge with this signature that an operation is to make. -/
def madeWith? (editor : Editor) (sig : String) (edit : Edit) : Option Edge :=
  (editor.made? edit).filter fun edge => edge.signature = sig

/-- The edge that stands for a signature after an operation: none if one with the signature is
removed, else the one that stood for it before, else the one that is made. -/
def standsAfter (editor : Editor) (sig : String) (edit : Edit) (standing : Option Edge) :
    Option Edge :=
  if editor.Releases edit sig then none else standing.or (editor.madeWith? sig edit)

/-- The edge that stands for a signature after some operations, from the one that does before. -/
def standingFrom (sig : String) : Editor → Option Edge → List Edit → Option Edge
  | _, standing, [] => standing
  | editor, standing, edit :: rest =>
    standingFrom sig (editor.perform edit) (editor.standsAfter sig edit standing) rest

/-- The edge that stands for a signature after some operations on a graph that was loaded. -/
def standing? (editor : Editor) (sig : String) (edits : List Edit) : Option Edge :=
  standingFrom sig editor (editor.graph.lastWith sig) edits

theorem performAll_append_singleton (editor : Editor) (edits : List Edit) (edit : Edit) :
    editor.performAll (edits ++ [edit]) = (editor.performAll edits).perform edit := by
  rw [performAll, List.foldl_append]
  rfl

theorem standing?_append_singleton (editor : Editor) (sig : String) (edits : List Edit)
    (edit : Edit) :
    editor.standing? sig (edits ++ [edit]) =
      (editor.performAll edits).standsAfter sig edit (editor.standing? sig edits) := by
  unfold standing?
  generalize editor.graph.lastWith sig = standing
  induction edits generalizing editor standing with
  | nil => rfl
  | cons first rest ih => exact ih (editor.perform first) _

/-! ## The registry has the edge that stands -/

theorem get?_registry_foldl_dropEdge (entries : Entries Edge) :
    (entries.foldl dropEdge editor).registry.get? sig =
      if ∃ entry ∈ entries, entry.2.signature = sig then none else editor.registry.get? sig := by
  induction entries generalizing editor with
  | nil => simp
  | cons entry rest ih =>
      have herase : (editor.dropEdge entry).registry.get? sig =
          if sig = entry.2.signature then none else editor.registry.get? sig :=
        OrderedMap.get?_erase
      rw [List.foldl_cons, ih, herase]
      by_cases hsig : entry.2.signature = sig
      · rw [if_pos hsig.symm, ite_self, if_pos ⟨entry, List.mem_cons_self, hsig⟩]
      · have hrest : (∃ other ∈ entry :: rest, other.2.signature = sig) ↔
            ∃ other ∈ rest, other.2.signature = sig := by simp [hsig]
        simp only [hrest, if_neg (Ne.symm hsig)]

/-- An operation that keeps an edge under every id releases nothing. -/
theorem not_releases (h : ∀ id ∈ editor.graph.edges.keys,
    id ∈ (editor.perform edit).graph.edges.keys) : ¬ editor.Releases edit sig := by
  rintro ⟨entry, hentry, -, hgone⟩
  obtain ⟨edge, hedge⟩ := OrderedMap.mem_keys_iff.1 (h entry.1 (List.mem_map_of_mem hentry))
  cases hgone.symm.trans hedge

/-- An operation that drops some edges releases the signatures of these. -/
theorem releases_iff_of_drops {dropped : Entries Edge}
    (hsub : ∀ entry ∈ dropped, entry ∈ editor.graph.edges.entries)
    (hedges : (editor.perform edit).graph.edges = (dropped.foldl dropEdge editor).graph.edges) :
    editor.Releases edit sig ↔ ∃ entry ∈ dropped, entry.2.signature = sig := by
  rw [Releases, hedges]
  constructor
  · rintro ⟨entry, hentry, hsig, hgone⟩
    have hkey : entry.1 ∈ Entries.keys dropped := by
      by_contra hkey
      have hstored := OrderedMap.mem_entries_iff.1 hentry
      cases hgone.symm.trans ((get?_edges_foldl_dropEdge dropped).2 ⟨hkey, hstored⟩)
    obtain ⟨other, hother, heq⟩ := List.mem_map.1 hkey
    -- an id has one edge, so the other entry is this one
    obtain rfl := List.inj_on_of_nodup_map editor.graph.edges.nodup (hsub other hother) hentry heq
    exact ⟨other, hother, hsig⟩
  · rintro ⟨entry, hentry, hsig⟩
    refine ⟨entry, hsub entry hentry, hsig, ?_⟩
    cases hget : (dropped.foldl dropEdge editor).graph.edges.get? entry.1 with
    | none => rfl
    | some edge =>
        exact absurd (List.mem_map_of_mem hentry) ((get?_edges_foldl_dropEdge dropped).1 hget).1

theorem madeWith?_eq_none (h : editor.made? edit = none) : editor.madeWith? sig edit = none := by
  rw [madeWith?, h]
  rfl

theorem madeWith?_addEdge (hsource : source ∈ editor.graph.nodeIds)
    (htarget : target ∈ editor.graph.nodeIds) :
    editor.madeWith? sig (.addEdge source target) =
      if signature source target = sig then some ⟨newEdgeId source target, source, target⟩
      else none := by
  rw [madeWith?, made?, if_pos ⟨hsource, htarget⟩, Option.filter_some]
  simp only [decide_eq_true_eq]
  rfl

/-- What operations do to the registry that make no edge. -/
theorem get?_registry_of_drops {dropped : Entries Edge}
    (hsub : ∀ entry ∈ dropped, entry ∈ editor.graph.edges.entries)
    (hedges : (editor.perform edit).graph.edges = (dropped.foldl dropEdge editor).graph.edges)
    (hregistry : (editor.perform edit).registry = (dropped.foldl dropEdge editor).registry)
    (hmade : editor.made? edit = none) :
    (editor.perform edit).registry.get? sig =
      if editor.Releases edit sig then none
      else (editor.registry.get? sig).or ((editor.madeWith? sig edit).map Edge.id) := by
  simp only [releases_iff_of_drops hsub hedges]
  rw [hregistry, get?_registry_foldl_dropEdge, madeWith?_eq_none hmade, Option.map_none,
    Option.or_none]

/-- What an operation does to the registry: what it removes is released, and what it makes is
registered unless something is already. -/
theorem get?_registry_perform (h : editor.Named) (edit : Edit) (sig : String) :
    (editor.perform edit).registry.get? sig =
      if editor.Releases edit sig then none
      else (editor.registry.get? sig).or ((editor.madeWith? sig edit).map Edge.id) := by
  have hnil : ∀ entry ∈ ([] : Entries Edge), entry ∈ editor.graph.edges.entries := nofun
  cases hedit : editor.apply edit with
  | error fault =>
      have hsame := perform_of_error hedit
      exact get?_registry_of_drops hnil (by rw [hsame]; rfl) (by rw [hsame]; rfl)
        (made?_eq_none_of_refuses (refuses_of_apply hedit))
  | ok edited =>
      have hperform := perform_of_ok hedit
      cases applies_of_apply hedit with
      | nodeAdded | configured | moved | cleared =>
          exact get?_registry_of_drops hnil (by rw [hperform]; rfl) (by rw [hperform]; rfl) rfl
      | nodeRemoved =>
          exact get?_registry_of_drops (fun _ => List.mem_of_mem_filter) (by rw [hperform]; rfl)
            (by rw [hperform]; rfl) rfl
      | edgeRemoved id edge hedge =>
          have hone : ∀ entry ∈ [(id, edge)], entry ∈ editor.graph.edges.entries := by
            simpa using OrderedMap.mem_entries_iff.2 hedge
          exact get?_registry_of_drops hone (by rw [hperform]; rfl) (by rw [hperform]; rfl) rfl
      | connected source target id hsource htarget hregistered =>
          rw [h.registered?_eq] at hregistered
          rw [if_neg (not_releases (by rw [hperform]; exact fun _ hid => hid)), hperform,
            madeWith?_addEdge (OrderedMap.contains_iff.1 hsource)
              (OrderedMap.contains_iff.1 htarget)]
          -- a signature with an entry keeps it, and others are not concerned
          by_cases hsig : signature source target = sig
          · subst hsig
            rw [hregistered]
            exact hregistered
          · rw [if_neg hsig]
            exact Option.or_none.symm
      | edgeAdded source target hsource htarget hfresh =>
          rw [h.registered?_eq] at hfresh
          rw [if_neg (not_releases ?_), hperform, madeWith?_addEdge
            (OrderedMap.contains_iff.1 hsource) (OrderedMap.contains_iff.1 htarget)]
          · simp only [announced, OrderedMap.get?_insert]
            by_cases hsig : signature source target = sig
            · subst hsig
              rw [if_pos rfl, if_pos rfl, hfresh]
              rfl
            · rw [if_neg hsig, if_neg (Ne.symm hsig)]
              exact Option.or_none.symm
          · intro id hid
            rw [hperform]
            exact OrderedMap.mem_keys_insert_iff.2 (.inr hid)

/-- Edges stay stored under their ids. -/
theorem EdgesById.perform (h : editor.EdgesById) (edit : Edit) :
    (editor.perform edit).EdgesById := by
  intro id edge hedge
  rcases get?_edges_of_perform hedge with hold | ⟨-, hid⟩
  · exact h id edge hold
  · exact hid

theorem EdgesById.performAll (h : editor.EdgesById) (edits : List Edit) :
    (editor.performAll edits).EdgesById := by
  induction edits generalizing editor with
  | nil => exact h
  | cons edit rest ih => exact ih (h.perform edit)

theorem get?_registryOf (entries : Entries Edge) (sig : String) :
    (registryOf entries).get? sig =
      ((entries.filter fun entry => entry.2.signature = sig).getLast?).map Prod.fst := by
  have hfold : ∀ registry : OrderedMap String,
      (entries.foldl (fun registry entry =>
        registry.insert (signature entry.2.source entry.2.target) entry.1) registry).get? sig =
        (((entries.filter fun entry => entry.2.signature = sig).getLast?).map Prod.fst).or
          (registry.get? sig) := by
    induction entries with
    | nil => exact fun _ => rfl
    | cons entry rest ih =>
        intro registry
        rw [List.foldl_cons, ih, OrderedMap.get?_insert]
        by_cases hsig : entry.2.signature = sig
        · have hasked : sig = signature entry.2.source entry.2.target := hsig.symm
          rw [List.filter_cons_of_pos (by simpa using hsig), List.getLast?_cons, if_pos hasked]
          cases (rest.filter fun entry => entry.2.signature = sig).getLast? <;> rfl
        · have hother : ¬ sig = signature entry.2.source entry.2.target := Ne.symm hsig
          rw [List.filter_cons_of_neg (by simpa using hsig), if_neg hother]
  rw [registryOf, hfold]
  exact Option.or_none

/-- Of the edges of a graph with a signature the last one is registered. -/
theorem get?_registry_ofGraph (hstored : (ofGraph graph).EdgesById) (sig : String) :
    (ofGraph graph).registry.get? sig = (graph.lastWith sig).map Edge.id := by
  have hedges : (graph.edgeList.filter fun edge => edge.signature = sig) =
      (graph.edges.entries.filter fun entry => entry.2.signature = sig).map Prod.snd :=
    List.filter_map
  have hids : ∀ entry ∈ graph.edges.entries, entry.2.id = entry.1 := fun entry hentry =>
    hstored entry.1 entry.2 (OrderedMap.mem_entries_iff.1 hentry)
  show (registryOf graph.edges.entries).get? sig = _
  rw [get?_registryOf, Graph.lastWith, hedges, List.getLast?_map, Option.map_map]
  refine Option.map_congr fun entry hentry => ?_
  have hmem := List.mem_of_getLast? hentry
  exact (hids entry (List.mem_of_mem_filter hmem)).symm

/-- The registry has the edge that stands for a signature, whatever is done to a loaded graph. -/
theorem get?_registry_performAll (hstored : (ofGraph graph).EdgesById)
    (hnamed : (ofGraph graph).Named) (edits : List Edit) (sig : String) :
    ((ofGraph graph).performAll edits).registry.get? sig =
      ((ofGraph graph).standing? sig edits).map Edge.id := by
  have hrun : ∀ (editor : Editor) (standing : Option Edge), editor.Named →
      editor.registry.get? sig = standing.map Edge.id →
      (editor.performAll edits).registry.get? sig =
        (standingFrom sig editor standing edits).map Edge.id := by
    induction edits with
    | nil => exact fun _ _ _ h => h
    | cons edit rest ih =>
        intro editor standing hnamed h
        refine ih (editor.perform edit) (editor.standsAfter sig edit standing)
          (hnamed.perform edit) ?_
        rw [get?_registry_perform hnamed, h, standsAfter]
        split
        · rfl
        · cases standing <;> rfl
  exact hrun _ _ hnamed (get?_registry_ofGraph hstored sig)

/-! ## When none stands -/

/-- An edge with the signature has been removed, and since then no nodes with it were connected. -/
def Released (editor : Editor) (sig : String) (edits : List Edit) : Prop :=
  ∃ before edit after, edits = before ++ edit :: after ∧
    (editor.performAll before).Releases edit sig ∧
      ∀ middle next rest, after = middle ++ next :: rest →
        (editor.performAll (before ++ edit :: middle)).madeWith? sig next = none

theorem released_append_singleton_iff : editor.Released sig (edits ++ [edit]) ↔
    (editor.performAll edits).Releases edit sig ∨
      editor.Released sig edits ∧ (editor.performAll edits).madeWith? sig edit = none := by
  constructor
  · rintro ⟨before, first, after, hedits, hreleases, hnone⟩
    rcases List.eq_nil_or_concat after with rfl | ⟨middle, last, rfl⟩
    · obtain ⟨rfl, hlast⟩ := List.append_inj' hedits rfl
      obtain rfl := List.singleton_inj.1 hlast
      exact .inl hreleases
    · rw [List.concat_eq_append, ← List.cons_append, ← List.append_assoc] at hedits
      obtain ⟨rfl, hlast⟩ := List.append_inj' hedits rfl
      obtain rfl := List.singleton_inj.1 hlast
      refine .inr ⟨⟨before, first, middle, rfl, hreleases, fun between next rest hmiddle => ?_⟩, ?_⟩
      · exact hnone between next (rest ++ [edit]) (by simp [hmiddle])
      · exact hnone middle edit [] (by simp)
  · rintro (hreleases | ⟨⟨before, first, after, rfl, hreleases, hnone⟩, hmade⟩)
    · exact ⟨edits, edit, [], rfl, hreleases, by simp⟩
    · refine ⟨before, first, after ++ [edit], by simp, hreleases, fun middle next rest hsplit => ?_⟩
      rcases List.eq_nil_or_concat rest with rfl | ⟨others, last, rfl⟩
      · obtain ⟨rfl, hlast⟩ := List.append_inj' hsplit rfl
        obtain rfl := List.singleton_inj.1 hlast
        exact hmade
      · rw [List.concat_eq_append, ← List.cons_append, ← List.append_assoc] at hsplit
        obtain ⟨rfl, -⟩ := List.append_inj' hsplit rfl
        exact hnone middle next others rfl

theorem madeWith?_eq_some_iff : editor.madeWith? sig edit = some edge ↔
    editor.made? edit = some edge ∧ edge.signature = sig := by
  rw [madeWith?, Option.filter_eq_some_iff, decide_eq_true_eq]

theorem standing?_eq_none_of_released (h : editor.Released sig edits) :
    editor.standing? sig edits = none := by
  induction edits using List.reverseRecOn with
  | nil =>
      obtain ⟨before, edit, after, hedits, -⟩ := h
      simp at hedits
  | append_singleton edits edit ih =>
      rw [standing?_append_singleton, standsAfter]
      rcases released_append_singleton_iff.1 h with hreleases | ⟨hreleased, hmade⟩
      · rw [if_pos hreleases]
      · rw [ih hreleased, hmade, Option.or_none, ite_self]

theorem released_of_standing?_eq_none (h : editor.standing? sig edits = none) :
    editor.Released sig edits ∨
      ∀ edge ∈ (editor.performAll edits).graph.edgeList, edge.signature ≠ sig := by
  induction edits using List.reverseRecOn with
  | nil =>
      refine .inr fun edge hedge hsig => ?_
      have hnone := List.getLast?_eq_none_iff.1 h
      exact List.filter_eq_nil_iff.1 hnone edge hedge (by simpa using hsig)
  | append_singleton edits edit ih =>
      rw [standing?_append_singleton, standsAfter] at h
      split at h
      · rename_i hreleases
        exact .inl (released_append_singleton_iff.2 (.inl hreleases))
      obtain ⟨hstanding, hmade⟩ := Option.or_eq_none_iff.1 h
      rcases ih hstanding with hreleased | hnone
      · exact .inl (released_append_singleton_iff.2 (.inr ⟨hreleased, hmade⟩))
      · refine .inr fun edge hedge hsig => ?_
        rw [performAll_append_singleton] at hedge
        obtain ⟨id, hedge⟩ := OrderedMap.mem_values_iff.1 hedge
        rcases get?_edges_of_perform hedge with hold | ⟨hnew, -⟩
        · exact hnone edge (OrderedMap.mem_values_iff.2 ⟨id, hold⟩) hsig
        · cases hmade.symm.trans (madeWith?_eq_some_iff.2 ⟨hnew, hsig⟩)

/-- Where an edge with a signature is there, none stands for the signature exactly after a removal
with no connection since. -/
theorem standing?_eq_none_iff (hedge : edge ∈ (editor.performAll edits).graph.edgeList)
    (hsig : edge.signature = sig) :
    editor.standing? sig edits = none ↔ editor.Released sig edits := by
  refine ⟨fun hnone => ?_, standing?_eq_none_of_released⟩
  exact (released_of_standing?_eq_none hnone).resolve_right fun hall => hall edge hedge hsig

/-! ## Where every edge stands for its pair -/

/-- The id of a new edge for a pair of nodes is that of an edge of another pair. -/
def IdTaken (editor : Editor) (source target : String) : Prop :=
  ∃ edge, editor.graph.edges.get? (newEdgeId source target) = some edge ∧
    edge.ends ≠ (source, target)

theorem indexed_ofGraph (hnodup : (graph.edgeList.map Edge.signature).Nodup) :
    (ofGraph graph).Indexed := by
  have hnodup' : (graph.edges.entries.map fun entry => entry.2.signature).Nodup := by
    simpa [Graph.edgeList, OrderedMap.values, Function.comp_def] using hnodup
  intro sig id
  show (registryOf graph.edges.entries).get? sig = some id ↔ _
  rw [get?_registryOf]
  constructor
  · intro h
    obtain ⟨entry, hlast, rfl⟩ := Option.map_eq_some_iff.1 h
    obtain ⟨hentry, hsig⟩ := List.mem_filter.1 (List.mem_of_getLast? hlast)
    exact ⟨entry.2, OrderedMap.mem_entries_iff.1 hentry, by simpa using hsig⟩
  · rintro ⟨edge, hedge, hsig⟩
    have hentry := OrderedMap.mem_entries_iff.2 hedge
    have hmem : (id, edge) ∈ graph.edges.entries.filter fun entry => entry.2.signature = sig :=
      List.mem_filter.2 ⟨hentry, by simpa using hsig⟩
    have hne := List.ne_nil_of_mem hmem
    rw [List.getLast?_eq_some_getLast hne]
    obtain ⟨hlast, hlastSig⟩ := List.mem_filter.1 (List.getLast_mem hne)
    have hsame := List.inj_on_of_nodup_map hnodup' hlast hentry
      ((of_decide_eq_true hlastSig).trans hsig.symm)
    rw [hsame]
    rfl

theorem named_ofGraph (h : ∀ id edge, graph.edges.get? id = some edge → id ≠ "") :
    (ofGraph graph).Named := by
  intro sig hempty
  change (registryOf graph.edges.entries).get? sig = some "" at hempty
  rw [get?_registryOf] at hempty
  obtain ⟨⟨id, edge⟩, hlast, rfl⟩ := Option.map_eq_some_iff.1 hempty
  have hentry := List.mem_of_mem_filter (List.mem_of_getLast? hlast)
  exact h "" edge (OrderedMap.mem_entries_iff.1 hentry) rfl

theorem Indexed.perform (h : editor.Indexed) (hnamed : editor.Named)
    (hfree : ∀ source target, edit = .addEdge source target → ¬ editor.IdTaken source target) :
    (editor.perform edit).Indexed := by
  cases hedit : editor.apply edit with
  | error fault =>
      rw [perform_of_error hedit]
      exact h
  | ok edited =>
      rw [perform_of_ok hedit]
      cases applies_of_apply hedit with
      | nodeAdded | configured | moved | connected | cleared => exact h
      | nodeRemoved id => exact h.detached id
      | edgeRemoved id edge hedge => exact h.dropEdge hedge
      | edgeAdded source target hsource htarget hfresh =>
          rw [hnamed.registered?_eq] at hfresh
          refine h.connect hfresh ?_
          cases hget : editor.graph.edges.get? (newEdgeId source target) with
          | none => rfl
          | some edge =>
              refine absurd ⟨edge, hget, fun hends => ?_⟩ (hfree source target rfl)
              obtain ⟨rfl, rfl⟩ := Prod.mk.inj hends
              exact h.signature_ne hfresh hget rfl

/-- Whatever is done, the registry has the edges that are there, if that is so at the start and no
new edge takes the id of another. -/
theorem Indexed.performAll (h : editor.Indexed) (hnamed : editor.Named)
    (hfree : ∀ before source target, before ++ [.addEdge source target] <+: edits →
      ¬ (editor.performAll before).IdTaken source target) : (editor.performAll edits).Indexed := by
  induction edits generalizing editor with
  | nil => exact h
  | cons edit rest ih =>
      have hnext : (editor.perform edit).Indexed := h.perform hnamed fun source target hedit =>
        hfree [] source target (by simp [hedit])
      refine ih hnext (hnamed.perform edit) fun before source target hprefix => ?_
      exact hfree (edit :: before) source target (List.cons_prefix_cons.2 ⟨rfl, hprefix⟩)

end Editor

end StageChain
