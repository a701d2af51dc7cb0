import ChannelServer.Proofs.Forest

/-!
# The state in the middle of an import

While an import runs, the registry is the one from before, the entries of the batch that are still
taken over, and links from some of these entries to their parents.  `Draft` holds the entries and
the links, `withDraft` is the registry they make.

A link goes from an entry to a channel that is no child of any link, so a draft has two levels like
the forest it is put on.  Under this condition every statement of an import turns a draft into a
draft: attaching adds a link, destroying takes out an entry and its links.

## Main results

* `link_withDraft`: attaching adds a link at the end.
* `destroyChannel_withDraft`: destroying takes out an entry, and what was below it is free again.
-/

namespace ChannelServer

open Registry (Pending)

/-! ## Links -/

/-- The children of a channel among some links, in the order of the links. -/
def childrenOf (links : List Pending) (parent : ChannelId) : List ChannelId :=
  (links.filter (·.parent = parent)).map (·.child)

/-- The parent of a channel among some links. -/
def parentOf (links : List Pending) (child : ChannelId) : Option ChannelId :=
  (links.find? (·.child = child)).map (·.parent)

section Links

variable {links : List Pending} {child parent id : ChannelId}

theorem mem_childrenOf : child ∈ childrenOf links parent ↔ ⟨child, parent⟩ ∈ links := by
  simp only [childrenOf, List.mem_map, List.mem_filter, decide_eq_true_eq]
  constructor
  · rintro ⟨⟨child', parent'⟩, ⟨hmem, rfl⟩, rfl⟩
    exact hmem
  · intro h
    exact ⟨⟨child, parent⟩, ⟨h, rfl⟩, rfl⟩

theorem parentOf_eq_none : parentOf links child = none ↔ child ∉ links.map (·.child) := by
  simp [parentOf, List.find?_eq_none]

/-- Where no child has two links, the links are the parents. -/
theorem parentOf_eq_some (hnodup : (links.map (·.child)).Nodup) :
    parentOf links child = some parent ↔ ⟨child, parent⟩ ∈ links := by
  simp only [parentOf, Option.map_eq_some_iff]
  constructor
  · rintro ⟨⟨child', parent'⟩, hfind, rfl⟩
    have hchild : child' = child := by simpa using List.find?_some hfind
    rw [← hchild]
    exact List.mem_of_find?_eq_some hfind
  · intro hmem
    cases hfind : links.find? (·.child = child) with
    | none =>
        have hnot := List.find?_eq_none.mp hfind _ hmem
        simp at hnot
    | some first =>
        have hchild : first.child = child := by simpa using List.find?_some hfind
        have hsame := List.inj_on_of_nodup_map hnodup (List.mem_of_find?_eq_some hfind) hmem hchild
        exact ⟨first, rfl, by rw [hsame]⟩

theorem childrenOf_append (links links' : List Pending) :
    childrenOf (links ++ links') id = childrenOf links id ++ childrenOf links' id := by
  rw [childrenOf, List.filter_append, List.map_append]
  rfl

theorem parentOf_append (links links' : List Pending) :
    parentOf (links ++ links') id = (parentOf links id).or (parentOf links' id) := by
  rw [parentOf, List.find?_append, Option.map_or]
  rfl

theorem childrenOf_singleton :
    childrenOf [⟨child, parent⟩] id = if id = parent then [child] else [] := by
  by_cases h : parent = id
  · simp [childrenOf, h]
  · simp [childrenOf, h, Ne.symm h]

theorem parentOf_singleton :
    parentOf [⟨child, parent⟩] id = if id = child then some parent else none := by
  by_cases h : child = id
  · simp [parentOf, h]
  · simp [parentOf, h, Ne.symm h]

/-- Without the links of one child, everything else is below what it was below. -/
theorem childrenOf_filter_child :
    childrenOf (links.filter (·.child ≠ child)) id = (childrenOf links id).filter (· ≠ child) := by
  simp only [childrenOf, List.filter_filter, List.filter_map, Function.comp_def]
  congr 1
  apply List.filter_congr
  intro link _
  rw [Bool.and_comm]

theorem parentOf_filter_child :
    parentOf (links.filter (·.child ≠ child)) id =
      if id = child then none else parentOf links id := by
  by_cases h : id = child
  · rw [if_pos h, parentOf_eq_none]
    simp [h]
  · rw [if_neg h, parentOf, parentOf, List.find?_filter]
    congr 2
    funext link
    by_cases hlink : link.child = id
    · simp [hlink, h]
    · simp [hlink]

theorem childrenOf_filter_parent :
    childrenOf (links.filter (·.parent ≠ parent)) id =
      if id = parent then [] else childrenOf links id := by
  by_cases h : id = parent
  · rw [if_pos h, childrenOf, List.filter_filter, List.filter_eq_nil_iff.mpr, List.map_nil]
    intro link _
    simp [h]
  · rw [if_neg h, childrenOf, childrenOf, List.filter_filter]
    congr 1
    apply List.filter_congr
    intro link _
    by_cases hlink : link.parent = id
    · simp [hlink, h]
    · simp [hlink]

theorem parentOf_filter_parent (hnodup : (links.map (·.child)).Nodup) :
    parentOf (links.filter (·.parent ≠ parent)) id =
      if id ∈ childrenOf links parent then none else parentOf links id := by
  have hnodup' : ((links.filter (·.parent ≠ parent)).map (·.child)).Nodup :=
    (List.filter_sublist.map _).nodup hnodup
  apply Option.ext
  intro found
  rw [parentOf_eq_some hnodup', List.mem_filter]
  by_cases hmem : id ∈ childrenOf links parent
  · rw [if_pos hmem]
    have hsome := (parentOf_eq_some hnodup).mpr (mem_childrenOf.mp hmem)
    constructor
    · rintro ⟨hfound, hne⟩
      rw [← parentOf_eq_some hnodup, hsome] at hfound
      cases hfound
      simp at hne
    · intro h
      cases h
  · rw [if_neg hmem, parentOf_eq_some hnodup]
    constructor
    · exact fun h => h.1
    · intro h
      refine ⟨h, decide_eq_true fun hparent => hmem ?_⟩
      rw [mem_childrenOf, ← hparent]
      exact h

end Links

/-! ## Drafts -/

/-- What an import has built so far. -/
structure Draft where
  entries : List Wire.Entry
  links : List Pending

namespace Draft

/-- The draft with one more link. -/
def link (link : Pending) (draft : Draft) : Draft :=
  { draft with links := draft.links ++ [link] }

/-- The draft with an entry that is free. -/
def free (id : ChannelId) (draft : Draft) : Draft :=
  { draft with links := draft.links.filter (·.child ≠ id) }

/-- The draft without an entry.  What was below it is free. -/
def remove (id : ChannelId) (draft : Draft) : Draft where
  entries := draft.entries.filter (·.id ≠ id)
  links := draft.links.filter (·.parent ≠ id)

end Draft

/-- A channel of the registry from before, with the children that links give it. -/
def Channel.extend (links : List Pending) (channel : Channel) : Channel :=
  { channel with subchannels := channel.subchannels ++ childrenOf links channel.id }

/-- The channel that an entry becomes, in the place that links give it. -/
def Wire.Entry.fresh (links : List Pending) (entry : Wire.Entry) : Channel where
  id := entry.id
  info := entry.info
  parent := parentOf links entry.id
  subchannels := childrenOf links entry.id

namespace Registry

variable {base : Registry} {draft : Draft}

/-- A registry together with a draft. -/
def withDraft (draft : Draft) (base : Registry) : Registry :=
  { base with
    channels :=
      { base.channels with
        entries := base.channels.entries.map (·.extend draft.links) ++
          draft.entries.map (·.fresh draft.links) } }

/-- A draft that fits a registry. -/
structure Fitting (base : Registry) (draft : Draft) : Prop where
  /-- All ids are different, those of the registry and those of the entries. -/
  distinct : (base.channels.ids ++ draft.entries.map (·.id)).Nodup
  /-- No child has two links. -/
  nodup : (draft.links.map (·.child)).Nodup
  /-- Only entries get a parent. -/
  childFound : ∀ link ∈ draft.links, link.child ∈ draft.entries.map (·.id)
  parentFound : ∀ link ∈ draft.links,
    link.parent ∈ base.channels.ids ∨ link.parent ∈ draft.entries.map (·.id)
  /-- What has a link has no children. -/
  parentTop : ∀ link ∈ draft.links, link.parent ∉ draft.links.map (·.child)

namespace Fitting

theorem old_of_base (h : Fitting base draft) {id : ChannelId} {c : Channel}
    (hc : base.channels.get? id = some c) : id ∉ draft.entries.map (·.id) := fun hmem =>
  (List.nodup_append.mp h.distinct).2.2 id (Slots.mem_ids_of_get? hc) id hmem rfl

theorem unlinked_of_base (h : Fitting base draft) {id : ChannelId} {c : Channel}
    (hc : base.channels.get? id = some c) : id ∉ draft.links.map (·.child) := by
  intro hmem
  obtain ⟨link, hlink, rfl⟩ := List.mem_map.mp hmem
  exact h.old_of_base hc (h.childFound link hlink)

theorem nodup_entries (h : Fitting base draft) : (draft.entries.map (·.id)).Nodup :=
  (List.nodup_append.mp h.distinct).2.1

/-- What has a link has no children. -/
theorem childrenOf_eq_nil (h : Fitting base draft) {id : ChannelId}
    (hlinked : id ∈ draft.links.map (·.child)) : childrenOf draft.links id = [] := by
  rw [List.eq_nil_iff_forall_not_mem]
  intro child hmem
  exact h.parentTop _ (mem_childrenOf.mp hmem) hlinked

end Fitting

/-! ## Reading a draft -/

theorem ids_withDraft :
    (base.withDraft draft).channels.ids = base.channels.ids ++ draft.entries.map (·.id) := by
  simp only [Slots.ids, withDraft, List.map_append, List.map_map]
  rfl

theorem nodup_ids_withDraft (h : Fitting base draft) :
    (base.withDraft draft).channels.ids.Nodup := by
  rw [ids_withDraft]
  exact h.distinct

theorem get?_withDraft_old (h : Fitting base draft) {id : ChannelId} {c : Channel}
    (hc : base.channels.get? id = some c) :
    (base.withDraft draft).channels.get? id = some (c.extend draft.links) := by
  have hid : c.id = id := Slots.id_of_get? hc
  refine (Slots.get?_eq_some_iff (nodup_ids_withDraft h)).mpr ⟨?_, hid⟩
  exact List.mem_append_left _ (List.mem_map_of_mem (Slots.mem_of_get? hc))

theorem get?_withDraft_new (h : Fitting base draft) {entry : Wire.Entry}
    (hentry : entry ∈ draft.entries) :
    (base.withDraft draft).channels.get? entry.id = some (entry.fresh draft.links) :=
  (Slots.get?_eq_some_iff (nodup_ids_withDraft h)).mpr
    ⟨List.mem_append_right _ (List.mem_map_of_mem hentry), rfl⟩

theorem get?_withDraft_none {id : ChannelId} (hbase : base.channels.get? id = none)
    (hentries : id ∉ draft.entries.map (·.id)) :
    (base.withDraft draft).channels.get? id = none := by
  rw [Slots.get?_eq_none, ids_withDraft, List.mem_append]
  rintro (hmem | hmem)
  · exact Slots.get?_eq_none.mp hbase hmem
  · exact hentries hmem

/-- Every id belongs to a channel from before, to an entry or to nothing. -/
theorem draft_cases (base : Registry) (draft : Draft) (id : ChannelId) :
    (∃ c, base.channels.get? id = some c) ∨
      (base.channels.get? id = none ∧ ∃ entry ∈ draft.entries, entry.id = id) ∨
      (base.channels.get? id = none ∧ id ∉ draft.entries.map (·.id)) := by
  cases hc : base.channels.get? id with
  | some c => exact .inl ⟨c, rfl⟩
  | none =>
      by_cases hmem : id ∈ draft.entries.map (·.id)
      · obtain ⟨entry, hentry, hid⟩ := List.mem_map.mp hmem
        exact .inr (.inl ⟨rfl, entry, hentry, hid⟩)
      · exact .inr (.inr ⟨rfl, hmem⟩)

/-- It is enough to look at the ids and at what they lead to. -/
private theorem eq_withDraft {channels : Slots Channel} (h : Fitting base draft)
    (hcapacity : channels.capacity = base.channels.capacity)
    (hids : channels.ids = base.channels.ids ++ draft.entries.map (·.id))
    (hget : ∀ id, channels.get? id = (base.withDraft draft).channels.get? id) :
    { base with channels } = base.withDraft draft := by
  have hsame : channels.ids = (base.withDraft draft).channels.ids := by rw [hids, ids_withDraft]
  have hchannels : channels = (base.withDraft draft).channels :=
    Slots.ext_get? hcapacity hsame (hsame ▸ nodup_ids_withDraft h) hget
  rw [hchannels]
  rfl

/-! ## Attaching in a draft -/

/-- A link that can be added to a draft. -/
structure Addable (base : Registry) (draft : Draft) (link : Pending) : Prop where
  childFound : link.child ∈ draft.entries.map (·.id)
  childTop : link.child ∉ draft.links.map (·.child)
  childless : ∀ other ∈ draft.links, other.parent ≠ link.child
  parentFound : link.parent ∈ base.channels.ids ∨ link.parent ∈ draft.entries.map (·.id)
  parentTop : link.parent ∉ draft.links.map (·.child)
  distinct : link.parent ≠ link.child

theorem Fitting.link (h : Fitting base draft) {link : Pending} (hadd : Addable base draft link) :
    Fitting base (draft.link link) where
  distinct := h.distinct
  nodup := by
    have hchildren : (draft.link link).links.map (·.child) =
        draft.links.map (·.child) ++ [link.child] := by
      rw [Draft.link, List.map_append, List.map_singleton]
    rw [hchildren, List.nodup_append]
    refine ⟨h.nodup, List.nodup_singleton _, fun a ha b hb => ?_⟩
    rw [List.mem_singleton.mp hb]
    exact fun heq => hadd.childTop (heq ▸ ha)
  childFound := by
    intro other hother
    rcases List.mem_append.mp hother with hold | hnew
    · exact h.childFound other hold
    · rw [List.mem_singleton.mp hnew]
      exact hadd.childFound
  parentFound := by
    intro other hother
    rcases List.mem_append.mp hother with hold | hnew
    · exact h.parentFound other hold
    · rw [List.mem_singleton.mp hnew]
      exact hadd.parentFound
  parentTop := by
    intro other hother
    rw [Draft.link, List.map_append, List.map_singleton, List.mem_append, List.mem_singleton]
    rcases List.mem_append.mp hother with hold | hnew
    · rintro (hlinked | hchild)
      · exact h.parentTop other hold hlinked
      · exact hadd.childless other hold hchild
    · rw [List.mem_singleton.mp hnew]
      rintro (hlinked | hchild)
      · exact hadd.parentTop hlinked
      · exact hadd.distinct hchild

/-- Attaching adds a link at the end. -/
theorem link_withDraft (h : Fitting base draft) {link : Pending}
    (hadd : Addable base draft link) :
    (base.withDraft draft).link link.parent link.child = base.withDraft (draft.link link) := by
  have h' := h.link hadd
  have hget (id : ChannelId) := get?_link (base.withDraft draft) hadd.distinct id
  have hchildren (id : ChannelId) : childrenOf (draft.link link).links id =
      childrenOf draft.links id ++ if id = link.parent then [link.child] else [] := by
    rw [Draft.link, childrenOf_append, childrenOf_singleton]
  have hparent (id : ChannelId) : parentOf (draft.link link).links id =
      (parentOf draft.links id).or (if id = link.child then some link.parent else none) := by
    rw [Draft.link, parentOf_append, parentOf_singleton]
  refine eq_withDraft h' rfl ?_ fun id => (hget id).trans ?_
  · exact (ids_link _ _).trans ids_withDraft
  · rcases draft_cases base draft id with ⟨c, hc⟩ | ⟨hc, entry, hentry, rfl⟩ | ⟨hc, hnone⟩
    · have hid : c.id = id := Slots.id_of_get? hc
      have hne : id ≠ link.child := fun heq => h.old_of_base hc (heq ▸ hadd.childFound)
      rw [get?_withDraft_old h hc, get?_withDraft_old h' hc, if_neg hne]
      simp only [Channel.extend, hchildren, hid]
      split
      · rw [Option.map_some, ← List.append_assoc]
        rfl
      · rw [List.append_nil]
    · rw [get?_withDraft_new h hentry, get?_withDraft_new h' hentry]
      simp only [Wire.Entry.fresh, hchildren, hparent]
      by_cases hchild : entry.id = link.child
      · have hne : entry.id ≠ link.parent := fun heq => hadd.distinct (heq.symm.trans hchild)
        have htop : parentOf draft.links entry.id = none :=
          parentOf_eq_none.mpr (hchild ▸ hadd.childTop)
        rw [if_pos hchild, if_neg hne, htop, List.append_nil, Option.none_or, if_pos hchild]
        rfl
      · rw [if_neg hchild, if_neg hchild, Option.or_none]
        split
        · rfl
        · rw [List.append_nil]
    · have hnone' : (base.withDraft (draft.link link)).channels.get? id = none :=
        get?_withDraft_none hc hnone
      rw [get?_withDraft_none hc hnone, hnone']
      simp only [Option.map_none, ite_self]

/-! ## Destroying in a draft -/

theorem Fitting.free (h : Fitting base draft) (id : ChannelId) : Fitting base (draft.free id) where
  distinct := h.distinct
  nodup := (List.filter_sublist.map _).nodup h.nodup
  childFound link hlink := h.childFound link (List.mem_of_mem_filter hlink)
  parentFound link hlink := h.parentFound link (List.mem_of_mem_filter hlink)
  parentTop link hlink hlinked := h.parentTop link (List.mem_of_mem_filter hlink)
    (List.map_subset _ (List.filter_subset_self _) hlinked)

/-- Detaching an entry from its parent takes its link away. -/
theorem unlink_withDraft (hforest : Forest base) (h : Fitting base draft) {entry : Wire.Entry}
    (hentry : entry ∈ draft.entries) {former : ChannelId}
    (hlink : ⟨entry.id, former⟩ ∈ draft.links) :
    (base.withDraft draft).unlink former entry.id = base.withDraft (draft.free entry.id) := by
  have h' := h.free entry.id
  have hparent : parentOf draft.links entry.id = some former :=
    (parentOf_eq_some h.nodup).mpr hlink
  have hne : former ≠ entry.id := fun heq => h.parentTop _ hlink
    (List.mem_map.mpr ⟨_, hlink, heq.symm⟩)
  have honly {id : ChannelId} (hid : id ≠ former) : (childrenOf draft.links id).filter
      (· ≠ entry.id) = childrenOf draft.links id := by
    refine List.filter_eq_self.mpr fun child hchild => decide_eq_true fun heq => hid ?_
    have hother := (parentOf_eq_some h.nodup).mpr (mem_childrenOf.mp hchild)
    rw [heq, hparent] at hother
    exact (Option.some.inj hother).symm
  have hchildren (id : ChannelId) : childrenOf (draft.free entry.id).links id =
      (childrenOf draft.links id).filter (· ≠ entry.id) := childrenOf_filter_child
  have hparents (id : ChannelId) : parentOf (draft.free entry.id).links id =
      if id = entry.id then none else parentOf draft.links id := parentOf_filter_child
  refine eq_withDraft h' rfl ?_ fun id => (get?_unlink _ hne id).trans ?_
  · exact (ids_unlink _ _).trans ids_withDraft
  · rcases draft_cases base draft id with ⟨c, hc⟩ | ⟨hc, other, hother, rfl⟩ | ⟨hc, hnone⟩
    · have hid : c.id = id := Slots.id_of_get? hc
      have hnew : id ≠ entry.id := fun heq =>
        h.old_of_base hc (heq ▸ List.mem_map_of_mem hentry)
      -- Channels from before list channels from before, so the entry is not among them.
      have hold : c.subchannels.filter (· ≠ entry.id) = c.subchannels := by
        refine List.filter_eq_self.mpr fun child hchild => decide_eq_true fun heq => ?_
        obtain ⟨d, hd⟩ := hforest.found hc child hchild
        exact h.old_of_base hd (heq ▸ List.mem_map_of_mem hentry)
      rw [get?_withDraft_old h hc, get?_withDraft_old h' hc, if_neg hnew]
      simp only [Channel.extend, hchildren, hid]
      split
      · simp only [Option.map_some, Channel.release, List.filter_append, hold]
      · rw [honly ‹_›]
    · have hnew : (base.withDraft (draft.free entry.id)).channels.get? other.id =
          some (other.fresh (draft.free entry.id).links) := get?_withDraft_new h' hother
      rw [get?_withDraft_new h hother, hnew]
      simp only [Wire.Entry.fresh, hchildren, hparents]
      by_cases hself : other.id = entry.id
      · rw [if_pos hself, if_pos hself, hself, honly hne.symm]
        rfl
      · rw [if_neg hself, if_neg hself]
        split
        · rfl
        · rw [honly ‹_›]
    · have hnone' : (base.withDraft (draft.free entry.id)).channels.get? id = none :=
        get?_withDraft_none hc hnone
      rw [get?_withDraft_none hc hnone, hnone']
      simp only [Option.map_none, ite_self]

/-- Freeing an entry takes its link away. -/
theorem free_withDraft (hforest : Forest base) (h : Fitting base draft) {entry : Wire.Entry}
    (hentry : entry ∈ draft.entries) :
    (base.withDraft draft).free entry.id = base.withDraft (draft.free entry.id) := by
  have hfound := get?_withDraft_new h hentry
  cases hparent : parentOf draft.links entry.id with
  | none =>
      have hlinks : draft.links.filter (·.child ≠ entry.id) = draft.links :=
        List.filter_eq_self.mpr fun link hlink => decide_eq_true fun hchild =>
          parentOf_eq_none.mp hparent (hchild ▸ List.mem_map_of_mem hlink)
      rw [Draft.free, hlinks]
      exact free_of_top hfound hparent
  | some former =>
      rw [free_of_below hfound hparent]
      exact unlink_withDraft hforest h hentry ((parentOf_eq_some h.nodup).mp hparent)

theorem Fitting.remove (h : Fitting base draft) {id : ChannelId}
    (htop : id ∉ draft.links.map (·.child)) : Fitting base (draft.remove id) where
  distinct := ((List.Sublist.refl _).append (List.filter_sublist.map _)).nodup h.distinct
  nodup := (List.filter_sublist.map _).nodup h.nodup
  childFound link hlink := by
    have hmem := List.mem_of_mem_filter hlink
    obtain ⟨entry, hentry, hid⟩ := List.mem_map.mp (h.childFound link hmem)
    refine List.mem_map.mpr ⟨entry, List.mem_filter.mpr ⟨hentry, decide_eq_true ?_⟩, hid⟩
    exact fun heq => htop (heq ▸ hid ▸ List.mem_map_of_mem hmem)
  parentFound link hlink := by
    obtain ⟨hmem, hparent⟩ := List.mem_filter.mp hlink
    rcases h.parentFound link hmem with hold | hnew
    · exact .inl hold
    · obtain ⟨entry, hentry, hid⟩ := List.mem_map.mp hnew
      refine .inr (List.mem_map.mpr ⟨entry, List.mem_filter.mpr ⟨hentry, ?_⟩, hid⟩)
      rwa [hid]
  parentTop link hlink hlinked := h.parentTop link (List.mem_of_mem_filter hlink)
    (List.map_subset _ (List.filter_subset_self _) hlinked)

theorem ids_remove_withDraft (h : Fitting base draft) {entry : Wire.Entry}
    (hentry : entry ∈ draft.entries) (c : Channel) :
    ((base.withDraft draft).remove entry.id c).channels.ids =
      base.channels.ids ++ (draft.remove entry.id).entries.map (·.id) := by
  have hold : base.channels.ids.filter (· ≠ entry.id) = base.channels.ids := by
    refine List.filter_eq_self.mpr fun id hid => decide_eq_true fun heq => ?_
    exact (List.nodup_append.mp h.distinct).2.2 id hid entry.id (List.mem_map_of_mem hentry) heq
  have hnew : (draft.remove entry.id).entries.map (·.id) =
      (draft.entries.map (·.id)).filter (· ≠ entry.id) := by
    rw [Draft.remove, List.filter_map]
    rfl
  have herase : ((base.withDraft draft).channels.erase entry.id).ids =
      (base.withDraft draft).channels.ids.filter (· ≠ entry.id) := by
    rw [Slots.ids, Slots.entries_erase (nodup_ids_withDraft h), Slots.ids, List.filter_map]
    rfl
  rw [ids_remove, herase, ids_withDraft, List.filter_append, hold, hnew]

/-- Destroying an entry that is free takes it out, and with it the links to it. -/
theorem remove_withDraft (h : Fitting base draft) {entry : Wire.Entry}
    (hentry : entry ∈ draft.entries) (htop : entry.id ∉ draft.links.map (·.child)) :
    (base.withDraft draft).remove entry.id (entry.fresh draft.links) =
      base.withDraft (draft.remove entry.id) := by
  have h' := h.remove htop
  have hnodup := nodup_ids_withDraft h
  have hget (id : ChannelId) :=
    get?_remove hnodup entry.id (entry.fresh draft.links) id
  have hentries : (draft.remove entry.id).entries.map (·.id) =
      (draft.entries.map (·.id)).filter (· ≠ entry.id) := by
    rw [Draft.remove, List.filter_map]
    rfl
  have hchildren (id : ChannelId) : childrenOf (draft.remove entry.id).links id =
      if id = entry.id then [] else childrenOf draft.links id := childrenOf_filter_parent
  have hparents (id : ChannelId) : parentOf (draft.remove entry.id).links id =
      if id ∈ childrenOf draft.links entry.id then none else parentOf draft.links id :=
    parentOf_filter_parent h.nodup
  refine eq_withDraft h' (capacity_orphan _ _) ?_ fun id => (hget id).trans ?_
  · exact ids_remove_withDraft h hentry _
  · rcases draft_cases base draft id with ⟨c, hc⟩ | ⟨hc, other, hother, rfl⟩ | ⟨hc, hnone⟩
    · have hid : c.id = id := Slots.id_of_get? hc
      have hne : id ≠ entry.id := fun heq =>
        h.old_of_base hc (heq ▸ List.mem_map_of_mem hentry)
      have hunlisted : id ∉ (entry.fresh draft.links).subchannels := fun hmem =>
        h.unlinked_of_base hc (List.mem_map.mpr ⟨_, mem_childrenOf.mp hmem, rfl⟩)
      rw [get?_withDraft_old h hc, get?_withDraft_old h' hc, if_neg hne, if_neg hunlisted]
      simp only [Channel.extend, hchildren, hid, if_neg hne]
    · by_cases hself : other.id = entry.id
      · have hgone : (base.withDraft (draft.remove entry.id)).channels.get? other.id = none := by
          refine get?_withDraft_none hc ?_
          rw [hentries]
          simp [hself]
        rw [if_pos hself, hgone]
      · have hstays : other ∈ (draft.remove entry.id).entries :=
          List.mem_filter.mpr ⟨hother, decide_eq_true hself⟩
        rw [if_neg hself, get?_withDraft_new h hother, get?_withDraft_new h' hstays]
        by_cases hbelow : other.id ∈ childrenOf draft.links entry.id
        · have hlisted : other.id ∈ (entry.fresh draft.links).subchannels := hbelow
          rw [if_pos hlisted]
          simp only [Wire.Entry.fresh, hchildren, hparents, if_neg hself, if_pos hbelow]
          rfl
        · have hunlisted : other.id ∉ (entry.fresh draft.links).subchannels := hbelow
          rw [if_neg hunlisted]
          simp only [Wire.Entry.fresh, hchildren, hparents, if_neg hself, if_neg hbelow]
    · have hnone' : (base.withDraft (draft.remove entry.id)).channels.get? id = none := by
        refine get?_withDraft_none hc ?_
        rw [hentries]
        exact fun hmem => hnone (List.mem_of_mem_filter hmem)
      rw [get?_withDraft_none hc hnone, hnone']
      simp only [Option.map_none, ite_self]

/-- Destroying an entry takes it and its links out, wherever it is. -/
theorem destroyChannel_withDraft (hforest : Forest base) (h : Fitting base draft)
    {entry : Wire.Entry} (hentry : entry ∈ draft.entries) :
    destroyChannel entry.id (base.withDraft draft) =
      .ok (childrenOf draft.links entry.id)
        (base.withDraft ((draft.free entry.id).remove entry.id)) := by
  have h' := h.free entry.id
  have hfree := free_withDraft hforest h hentry
  have htop : entry.id ∉ (draft.free entry.id).links.map (·.child) := by
    simp [Draft.free]
  have hparents : ParentFound (base.withDraft draft) (entry.fresh draft.links) := by
    intro parent hparent
    have hlink := (parentOf_eq_some h.nodup).mp hparent
    rcases h.parentFound _ hlink with hold | hnew
    · cases hc : base.channels.get? parent with
      | some c => exact ⟨_, get?_withDraft_old h hc⟩
      | none => exact absurd hold (Slots.get?_eq_none.mp hc)
    · obtain ⟨other, hother, hid⟩ := List.mem_map.mp hnew
      have hid : other.id = parent := hid
      exact ⟨_, hid ▸ get?_withDraft_new h hother⟩
  -- Nothing is below itself, so freeing an entry does not change what is below it.
  have hchildren : childrenOf (draft.free entry.id).links entry.id =
      childrenOf draft.links entry.id := by
    refine childrenOf_filter_child.trans (List.filter_eq_self.mpr fun child hchild => ?_)
    refine decide_eq_true fun heq => h.parentTop _ (mem_childrenOf.mp hchild) ?_
    exact heq ▸ List.mem_map.mpr ⟨_, mem_childrenOf.mp hchild, rfl⟩
  have hfreed : ((base.withDraft draft).free entry.id).channels.get? entry.id =
      some (entry.fresh (draft.free entry.id).links) := by
    rw [hfree]
    exact get?_withDraft_new h' hentry
  rw [destroyChannel_ok (get?_withDraft_new h hentry) hparents hfreed, hfree,
    remove_withDraft h' hentry htop]
  simp only [Wire.Entry.fresh, hchildren]

end Registry

end ChannelServer
