import ChannelServer.Proofs.Import.Depth
import ChannelServer.Proofs.Import.Draft

/-!
# Attaching as a walk through drafts

Attaching the pending channels of an import is a walk through drafts: each pending channel either
adds its link or goes, and with it what was below it.  `Draft.next` is one step of this walk.  It
asks the draft what an import asks the registry, so the walk can be looked at without the registry.

The report goes along: it lists the entries of the draft, and whatever is not among them was
rejected once.

## Main results

* `attach_withDraft`: a pending channel is attached exactly if its link fits the draft.
* `discard_withDraft`: a discarded channel goes, and with it what was below it.
* `attachAll_withDraft`: attaching the pending channels walks from draft to draft.
-/

namespace ChannelServer

open Registry (Pending Fitting)

namespace Draft

/-- The channel can have subchannels: the flags that count for it say so, whether it is a channel
from before or an entry without a parent. -/
def bears (base : Registry) (parent : ChannelId) (draft : Draft) : Bool :=
  match base.effectiveFlags parent with
  | .ok flags => flags.has .subchannels
  | .error _ => draft.entries.any fun entry =>
      entry.id = parent && parent ∉ draft.links.map (·.child) && entry.info.flags.has .subchannels

/-- The link can be added to the draft. -/
def fits (base : Registry) (link : Pending) (draft : Draft) : Bool :=
  draft.bears base link.parent && link.parent ≠ link.child &&
    draft.links.all (·.parent ≠ link.child) &&
    draft.entries.all fun entry => entry.id ≠ link.child || !entry.info.flags.has .default

/-- The draft without an entry, wherever it is. -/
def without (id : ChannelId) (draft : Draft) : Draft := (draft.free id).remove id

/-- The draft without an entry and without everything below it. -/
def drop (id : ChannelId) (draft : Draft) : Draft :=
  let gone := id :: childrenOf draft.links id
  { entries := draft.entries.filter (·.id ∉ gone)
    links := draft.links.filter fun link => link.child ∉ gone ∧ link.parent ∉ gone }

/-- The draft after one pending channel. -/
def next (base : Registry) (draft : Draft) (link : Pending) : Draft :=
  if draft.fits base link then draft.link link else draft.drop link.child

theorem without_eq (id : ChannelId) (draft : Draft) :
    draft.without id =
      { entries := draft.entries.filter (·.id ≠ id)
        links := draft.links.filter fun link => link.child ≠ id ∧ link.parent ≠ id } := by
  simp only [without, remove, free, List.filter_filter, mk.injEq, true_and]
  apply List.filter_congr
  intro link _
  rw [Bool.and_comm, Bool.decide_and]

/-- Going one after the other is the same as going at once. -/
theorem foldl_without (gone : List ChannelId) (draft : Draft) :
    gone.foldl (fun draft id => draft.without id) draft =
      { entries := draft.entries.filter (·.id ∉ gone)
        links := draft.links.filter fun link => link.child ∉ gone ∧ link.parent ∉ gone } := by
  induction gone generalizing draft with
  | nil => simp
  | cons id gone ih =>
      rw [List.foldl_cons, ih, without_eq]
      simp only [List.filter_filter, mk.injEq]
      constructor
      · apply List.filter_congr
        intro entry _
        simp [Bool.and_comm]
      · apply List.filter_congr
        intro link _
        simp only [List.mem_cons, not_or, ← Bool.decide_and, decide_eq_decide]
        tauto

theorem drop_eq (id : ChannelId) (draft : Draft) :
    draft.drop id = (childrenOf draft.links id).foldl (fun draft id => draft.without id)
      (draft.without id) :=
  (foldl_without (id :: childrenOf draft.links id) draft).symm

end Draft

namespace ImportReport

/-- Notes that a channel is gone, and after it, one by one, what was below it. -/
def discardAll (report : ImportReport) (id : ChannelId) (fault : Fault)
    (children : List ChannelId) : ImportReport :=
  children.foldl (fun report child => report.discard child (.badArgument (.parentDiscarded id)))
    (report.discard id fault)

theorem foldl_discard (report : ImportReport) (fault : Fault) (gone : List ChannelId) :
    gone.foldl (fun report id => report.discard id fault) report =
      { imported := report.imported.filter (· ∉ gone)
        rejected := report.rejected ++ gone.map fun id => ⟨some id, fault⟩ } := by
  induction gone generalizing report with
  | nil => simp
  | cons id gone ih =>
      rw [List.foldl_cons, ih]
      simp only [discard, reject, List.filter_filter, List.append_assoc, List.singleton_append,
        List.map_cons, mk.injEq, and_true]
      apply List.filter_congr
      intro other _
      simp [Bool.and_comm]

/-- One more entry for the channel and one for each child, in their order. -/
theorem discardAll_eq (report : ImportReport) (id : ChannelId) (fault : Fault)
    (children : List ChannelId) :
    report.discardAll id fault children =
      { imported := report.imported.filter (· ∉ id :: children)
        rejected := report.rejected ++ ⟨some id, fault⟩ ::
          children.map fun child => ⟨some child, .badArgument (.parentDiscarded id)⟩ } := by
  rw [discardAll, foldl_discard]
  simp only [discard, reject, List.filter_filter, List.append_assoc, List.singleton_append,
    mk.injEq, and_true]
  apply List.filter_congr
  intro other _
  simp [Bool.and_comm]

end ImportReport

namespace Registry

variable {base : Registry} {draft : Draft} {total : Nat} {report : ImportReport}

/-! ## When a link fits -/

theorem bears_iff (hforest : Forest base) (h : Fitting base draft) {parent : ChannelId} :
    draft.bears base parent = true ↔ ∃ p, (base.withDraft draft).channels.get? parent = some p ∧
      p.parent = none ∧ p.info.flags.has .subchannels = true := by
  unfold Draft.bears
  rcases draft_cases base draft parent with ⟨c, hc⟩ | ⟨hc, entry, hentry, rfl⟩ | ⟨hc, hnone⟩
  · rw [get?_withDraft_old h hc]
    cases htop : c.parent with
    | none =>
        simp only [effectiveFlags_of_top hc htop, Option.some.injEq, exists_eq_left']
        exact ⟨fun hflag => ⟨htop, hflag⟩, fun hflag => hflag.2⟩
    | some upper =>
        obtain ⟨u, hu⟩ := hforest.parentFound hc upper htop
        simp only [effectiveFlags_of_below hc htop hu, not_inherits_subchannels, Option.some.injEq,
          exists_eq_left']
        constructor
        · intro hfalse
          cases hfalse
        · rintro ⟨hnone, -⟩
          exact absurd (htop.symm.trans hnone) (Option.some_ne_none upper)
  · have herror : base.effectiveFlags entry.id = .error (.missing (.channel entry.id)) := by
      simp [effectiveFlags, channel_eq_error hc, bind, Except.bind]
    simp only [herror, get?_withDraft_new h hentry, List.any_eq_true, Bool.and_eq_true,
      decide_eq_true_eq, Option.some.injEq, exists_eq_left']
    constructor
    · rintro ⟨other, hother, ⟨hid, htop⟩, hflag⟩
      cases List.inj_on_of_nodup_map h.nodup_entries hother hentry hid
      exact ⟨parentOf_eq_none.mpr htop, hflag⟩
    · rintro ⟨htop, hflag⟩
      exact ⟨entry, hentry, ⟨rfl, parentOf_eq_none.mp htop⟩, hflag⟩
  · have herror : base.effectiveFlags parent = .error (.missing (.channel parent)) := by
      simp [effectiveFlags, channel_eq_error hc, bind, Except.bind]
    simp only [herror, get?_withDraft_none hc hnone, List.any_eq_true, Bool.and_eq_true,
      decide_eq_true_eq]
    constructor
    · rintro ⟨entry, hentry, ⟨hid, -⟩, -⟩
      exact absurd (List.mem_map.mpr ⟨entry, hentry, hid⟩) hnone
    · rintro ⟨p, hp, -⟩
      cases hp

theorem fits_iff {link : Pending} : draft.fits base link = true ↔
    draft.bears base link.parent = true ∧ link.parent ≠ link.child ∧
      (∀ other ∈ draft.links, other.parent ≠ link.child) ∧
      ∀ entry ∈ draft.entries, entry.id = link.child → entry.info.flags.has .default = false := by
  simp only [Draft.fits, Bool.and_eq_true, decide_eq_true_eq, List.all_eq_true, Bool.or_eq_true,
    Bool.not_eq_true', and_assoc, ne_eq]
  refine and_congr_right fun _ => and_congr_right fun _ => and_congr_right fun _ => ?_
  exact forall₂_congr fun entry _ => Decidable.imp_iff_not_or.symm

/-- What can have subchannels is there and has no link. -/
theorem parent_of_bears (hforest : Forest base) (h : Fitting base draft) {parent : ChannelId}
    (hbears : draft.bears base parent = true) :
    (parent ∈ base.channels.ids ∨ parent ∈ draft.entries.map (·.id)) ∧
      parent ∉ draft.links.map (·.child) := by
  obtain ⟨p, hp, htop, -⟩ := (bears_iff hforest h).mp hbears
  have hmem := Slots.mem_ids_of_get? hp
  rw [ids_withDraft, List.mem_append] at hmem
  refine ⟨hmem, ?_⟩
  rcases draft_cases base draft parent with ⟨c, hc⟩ | ⟨hc, entry, hentry, rfl⟩ | ⟨hc, hnone⟩
  · exact h.unlinked_of_base hc
  · rw [get?_withDraft_new h hentry] at hp
    cases hp
    exact parentOf_eq_none.mp htop
  · rw [get?_withDraft_none hc hnone] at hp
    cases hp

theorem addable_of_fits (hforest : Forest base) (h : Fitting base draft) {link : Pending}
    (hchild : link.child ∈ draft.entries.map (·.id))
    (htop : link.child ∉ draft.links.map (·.child)) (hfits : draft.fits base link = true) :
    Addable base draft link := by
  obtain ⟨hbears, hne, hchildless, -⟩ := fits_iff.mp hfits
  obtain ⟨hfound, hparentTop⟩ := parent_of_bears hforest h hbears
  exact ⟨hchild, htop, hchildless, hfound, hparentTop, hne⟩

/-- A pending channel is attached exactly if its link fits. -/
theorem attachable_withDraft (hforest : Forest base) (h : Fitting base draft) {link : Pending}
    {entry : Wire.Entry} (hentry : entry ∈ draft.entries) (hid : entry.id = link.child)
    (htop : link.child ∉ draft.links.map (·.child)) :
    (∃ p c, Attachable (base.withDraft draft) link.parent link.child p c) ↔
      draft.fits base link = true := by
  have hfound : (base.withDraft draft).channels.get? link.child =
      some (entry.fresh draft.links) := hid ▸ get?_withDraft_new h hentry
  have hparent : (entry.fresh draft.links).parent = none :=
    parentOf_eq_none.mpr (hid ▸ htop)
  rw [fits_iff, bears_iff hforest h]
  constructor
  · rintro ⟨p, c, hattach⟩
    have hc := hattach.childFound
    rw [hfound] at hc
    cases hc
    refine ⟨⟨p, hattach.parentFound, hattach.parentTop, hattach.takesSubchannels⟩,
      hattach.distinct, ?_, ?_⟩
    · intro other hother heq
      have hmem : other.child ∈ childrenOf draft.links entry.id :=
        mem_childrenOf.mpr (by rw [hid, ← heq]; exact hother)
      have hnil : childrenOf draft.links entry.id = [] := hattach.childless
      rw [hnil] at hmem
      cases hmem
    · intro other hother heq
      cases List.inj_on_of_nodup_map h.nodup_entries hother hentry (heq.trans hid.symm)
      exact hattach.notDefault hparent
  · rintro ⟨⟨p, hp, hparentTop, htakes⟩, hne, hchildless, hdefault⟩
    refine ⟨p, entry.fresh draft.links,
      { parentFound := hp
        childFound := hfound
        parentTop := hparentTop
        takesSubchannels := htakes
        distinct := hne
        childless := ?_
        notDefault := fun _ => hdefault entry hentry hid
        formerFound := ?_ }⟩
    · apply List.eq_nil_iff_forall_not_mem.mpr
      intro child hmem
      exact hchildless _ (mem_childrenOf.mp hmem) hid
    · intro former hformer
      rw [hparent] at hformer
      cases hformer

/-- Attaching a pending channel adds its link, or it is refused. -/
theorem attach_withDraft (hforest : Forest base) (h : Fitting base draft) {link : Pending}
    (hchild : link.child ∈ draft.entries.map (·.id))
    (htop : link.child ∉ draft.links.map (·.child)) :
    AllOrNothing (attach link.parent link.child) (base.withDraft draft)
      (draft.fits base link = true) () (base.withDraft (draft.link link)) := by
  obtain ⟨entry, hentry, hid⟩ := List.mem_map.mp hchild
  have hid : entry.id = link.child := hid
  have hattach := @attach_allOrNothing (base.withDraft draft) link.parent link.child
  rw [attachable_withDraft hforest h hentry hid htop] at hattach
  refine ⟨fun hfits => ?_, hattach.error⟩
  have hadd := addable_of_fits hforest h hchild htop hfits
  have hfree : (base.withDraft draft).free link.child = base.withDraft draft := by
    refine free_of_top (hid ▸ get?_withDraft_new h hentry) ?_
    exact parentOf_eq_none.mpr (hid ▸ htop)
  rw [hattach.ok hfits, graft, hfree, link_withDraft h hadd]

/-! ## Discarding -/

/-- The report lists what is in the draft, and everything else was rejected. -/
structure Tracks (total : Nat) (draft : Draft) (report : ImportReport) : Prop where
  imported : report.imported = draft.entries.map (·.id)
  complete : report.imported.length + report.rejected.length = total

theorem Fitting.without (h : Fitting base draft) (id : ChannelId) :
    Fitting base (draft.without id) :=
  (h.free id).remove (by simp [Draft.free])

theorem mem_entries_without {id id' : ChannelId} (hmem : id' ∈ draft.entries.map (·.id))
    (hne : id' ≠ id) : id' ∈ (draft.without id).entries.map (·.id) := by
  obtain ⟨entry, hentry, hid⟩ := List.mem_map.mp hmem
  refine List.mem_map.mpr ⟨entry, List.mem_filter.mpr ⟨hentry, ?_⟩, hid⟩
  exact decide_eq_true fun heq => hne (hid.symm.trans heq)

theorem contains_withDraft (h : Fitting base draft) {id : ChannelId}
    (hmem : id ∈ draft.entries.map (·.id)) :
    (base.withDraft draft).channels.contains id = true := by
  obtain ⟨entry, hentry, rfl⟩ := List.mem_map.mp hmem
  rw [Slots.contains, get?_withDraft_new h hentry, Option.isSome_some]

/-- What goes was listed once and is rejected once. -/
theorem Tracks.discard (htracks : Tracks total draft report) (h : Fitting base draft)
    {id : ChannelId} (hmem : id ∈ draft.entries.map (·.id)) (fault : Fault) :
    Tracks total (draft.without id) (report.discard id fault) := by
  have hlength : (report.imported.filter (· ≠ id)).length + 1 = report.imported.length := by
    have herase : report.imported.filter (· ≠ id) = report.imported.erase id := by
      rw [htracks.imported, h.nodup_entries.erase_eq_filter]
      apply List.filter_congr
      intro other _
      simp [bne, beq_eq_decide]
    rw [herase, List.length_erase_add_one (htracks.imported ▸ hmem)]
  constructor
  · rw [Draft.without_eq]
    simp only [ImportReport.discard, htracks.imported, List.filter_map]
    rfl
  · have hcomplete := htracks.complete
    simp only [ImportReport.discard, ImportReport.reject, List.length_append, List.length_singleton]
    omega

/-- An entry without children is destroyed and that is all. -/
theorem discard_leaf (report : ImportReport) (hforest : Forest base) (h : Fitting base draft)
    {id : ChannelId} (hmem : id ∈ draft.entries.map (·.id))
    (hleaf : childrenOf draft.links id = []) (fault : Fault) :
    discard id fault report (base.withDraft draft) =
      .ok (report.discard id fault) (base.withDraft (draft.without id)) := by
  obtain ⟨entry, hentry, rfl⟩ := List.mem_map.mp hmem
  rw [discard_apply, destroyChannel_withDraft hforest h hentry, hleaf]
  rfl

/-- Some entries that are to go one after the other: they have no links, neither to them nor from
them. -/
structure Leaves (draft : Draft) (leaves : List ChannelId) : Prop where
  distinct : leaves.Nodup
  present : ∀ id ∈ leaves, id ∈ draft.entries.map (·.id)
  unlinked : ∀ id ∈ leaves, id ∉ draft.links.map (·.child)
  childless : ∀ id ∈ leaves, childrenOf draft.links id = []

theorem links_without_subset (id : ChannelId) (draft : Draft) :
    (draft.without id).links ⊆ draft.links := by
  rw [Draft.without_eq]
  exact List.filter_subset_self _

theorem childrenOf_without {id parent : ChannelId} (hnil : childrenOf draft.links parent = []) :
    childrenOf (draft.without id).links parent = [] := by
  rw [List.eq_nil_iff_forall_not_mem] at hnil ⊢
  intro child hchild
  exact hnil child (mem_childrenOf.mpr (links_without_subset id draft (mem_childrenOf.mp hchild)))

namespace Leaves

variable {id : ChannelId} {gone leaves : List ChannelId}

/-- When the first of them has gone, the others still can. -/
theorem without (h : Leaves draft (id :: leaves)) : Leaves (draft.without id) leaves := by
  obtain ⟨hunique, hnodup⟩ := List.nodup_cons.mp h.distinct
  exact
    { distinct := hnodup
      present := fun other hother => mem_entries_without
        (h.present other (List.mem_cons_of_mem _ hother)) fun heq => hunique (heq ▸ hother)
      unlinked := fun other hother hlinked => h.unlinked other (List.mem_cons_of_mem _ hother)
        (List.map_subset _ (links_without_subset id draft) hlinked)
      childless := fun other hother =>
        childrenOf_without (h.childless other (List.mem_cons_of_mem _ hother)) }

/-- When the first ones have gone, the others still can. -/
theorem foldl_without (h : Leaves draft (gone ++ leaves)) :
    Leaves (gone.foldl (fun draft id => draft.without id) draft) leaves := by
  induction gone generalizing draft with
  | nil => exact h
  | cons id gone ih => exact ih h.without

theorem left (h : Leaves draft (gone ++ leaves)) : Leaves draft gone where
  distinct := (List.nodup_append.mp h.distinct).1
  present id hid := h.present id (List.mem_append_left _ hid)
  unlinked id hid := h.unlinked id (List.mem_append_left _ hid)
  childless id hid := h.childless id (List.mem_append_left _ hid)

end Leaves

/-- What is below an entry is left over when the entry has gone. -/
theorem Fitting.leaves (h : Fitting base draft) (id : ChannelId) :
    Leaves (draft.without id) (childrenOf draft.links id) where
  distinct := (List.filter_sublist.map _).nodup h.nodup
  present child hchild := by
    have hlink := mem_childrenOf.mp hchild
    refine mem_entries_without (h.childFound _ hlink) fun heq => h.parentTop _ hlink ?_
    exact List.mem_map.mpr ⟨_, hlink, heq⟩
  unlinked child hchild hlinked := by
    -- The only link from the child led to the entry, and went with it.
    obtain ⟨link, hkept, hsame⟩ := List.mem_map.mp hlinked
    rw [Draft.without_eq] at hkept
    obtain ⟨hlink, hother⟩ := List.mem_filter.mp hkept
    cases List.inj_on_of_nodup_map h.nodup hlink (mem_childrenOf.mp hchild) hsame
    exact (of_decide_eq_true hother).2 rfl
  childless child hchild := childrenOf_without
    (h.childrenOf_eq_nil (List.mem_map.mpr ⟨_, mem_childrenOf.mp hchild, rfl⟩))

/-- Leaves go one after the other, and each of them is noted. -/
theorem foldlM_discard (hforest : Forest base) (fault : Fault) {leaves : List ChannelId}
    (h : Fitting base draft) (hleaves : Leaves draft leaves) (report : ImportReport) :
    leaves.foldlM (fun report id => discard id fault report) report (base.withDraft draft) =
      .ok (leaves.foldl (fun report id => report.discard id fault) report)
        (base.withDraft (leaves.foldl (fun draft id => draft.without id) draft)) := by
  induction leaves generalizing draft report with
  | nil => rfl
  | cons id leaves ih =>
      have hfirst := discard_leaf report hforest h (hleaves.present id List.mem_cons_self)
        (hleaves.childless id List.mem_cons_self) fault
      rw [List.foldlM_cons, bind_apply, hfirst]
      exact ih (h.without id) hleaves.without (report.discard id fault)

theorem Fitting.foldl_without (h : Fitting base draft) (gone : List ChannelId) :
    Fitting base (gone.foldl (fun draft id => draft.without id) draft) := by
  induction gone generalizing draft with
  | nil => exact h
  | cons id gone ih => exact ih (h.without id)

theorem Tracks.foldl_discard (h : Fitting base draft) {leaves : List ChannelId}
    (hleaves : Leaves draft leaves) (htracks : Tracks total draft report) (fault : Fault) :
    Tracks total (leaves.foldl (fun draft id => draft.without id) draft)
      (leaves.foldl (fun report id => report.discard id fault) report) := by
  induction leaves generalizing draft report with
  | nil => exact htracks
  | cons id leaves ih =>
      exact ih (h.without id) hleaves.without
        (htracks.discard h (hleaves.present id List.mem_cons_self) fault)

/-- A discarded channel goes, and with it what was below it. -/
theorem discard_withDraft (hforest : Forest base) (h : Fitting base draft) {id : ChannelId}
    (hmem : id ∈ draft.entries.map (·.id)) (fault : Fault) (report : ImportReport) :
    discard id fault report (base.withDraft draft) =
      .ok (report.discardAll id fault (childrenOf draft.links id))
        (base.withDraft (draft.drop id)) := by
  have hrest := foldlM_discard hforest (.badArgument (.parentDiscarded id)) (h.without id)
    (h.leaves id) (report.discard id fault)
  rw [← Draft.drop_eq] at hrest
  obtain ⟨entry, hentry, rfl⟩ := List.mem_map.mp hmem
  rw [discard_apply, destroyChannel_withDraft hforest h hentry]
  exact hrest

theorem Fitting.drop (h : Fitting base draft) (id : ChannelId) : Fitting base (draft.drop id) := by
  rw [Draft.drop_eq]
  exact (h.without id).foldl_without _

theorem Tracks.drop (htracks : Tracks total draft report) (h : Fitting base draft) {id : ChannelId}
    (hmem : id ∈ draft.entries.map (·.id)) (fault : Fault) :
    Tracks total (draft.drop id) (report.discardAll id fault (childrenOf draft.links id)) := by
  rw [Draft.drop_eq]
  exact Tracks.foldl_discard (h.without id) (h.leaves id) (htracks.discard h hmem fault) _

/-! ## The walk -/

/-- A pending channel waits in the draft and has no link yet. -/
def Waits (draft : Draft) (link : Pending) : Prop :=
  link.child ∈ draft.entries.map (·.id) ∧ link.child ∉ draft.links.map (·.child)

theorem Fitting.next (hforest : Forest base) (h : Fitting base draft) {link : Pending}
    (hwaits : Waits draft link) : Fitting base (draft.next base link) := by
  unfold Draft.next
  split
  · exact h.link (addable_of_fits hforest h hwaits.1 hwaits.2 ‹_›)
  · exact h.drop link.child

/-- A step for one pending channel leaves the others waiting. -/
theorem Waits.next {link other : Pending} (hwaits : Waits draft other)
    (hne : other.child ≠ link.child) : Waits (draft.next base link) other := by
  obtain ⟨hmem, htop⟩ := hwaits
  unfold Draft.next
  split
  · refine ⟨hmem, ?_⟩
    rw [Draft.link, List.map_append, List.map_singleton, List.mem_append, List.mem_singleton]
    rintro (hlinked | heq)
    · exact htop hlinked
    · exact hne heq
  · constructor
    · obtain ⟨entry, hentry, hid⟩ := List.mem_map.mp hmem
      have hid : entry.id = other.child := hid
      refine List.mem_map.mpr ⟨entry, List.mem_filter.mpr ⟨hentry, decide_eq_true ?_⟩, hid⟩
      rw [hid, List.mem_cons]
      rintro (heq | hbelow)
      · exact hne heq
      · exact htop (List.mem_map.mpr ⟨_, mem_childrenOf.mp hbelow, rfl⟩)
    · intro hlinked
      obtain ⟨link', hlink', hchild⟩ := List.mem_map.mp hlinked
      exact htop (List.mem_map.mpr ⟨link', List.mem_of_mem_filter hlink', hchild⟩)

/-- One pending channel: it is attached, or it is refused and discarded.  Either way the draft is
the next one. -/
theorem attach_or_discard (hforest : Forest base) (h : Fitting base draft) {link : Pending}
    (hwaits : Waits draft link) (htracks : Tracks total draft report) :
    (attach link.parent link.child (base.withDraft draft) =
        .ok () (base.withDraft (draft.next base link)) ∧
      Tracks total (draft.next base link) report) ∨
    ∃ fault, attach link.parent link.child (base.withDraft draft) =
        .error fault (base.withDraft draft) ∧
      let report' := report.discardAll link.child fault (childrenOf draft.links link.child)
      discard link.child fault report (base.withDraft draft) =
        .ok report' (base.withDraft (draft.next base link)) ∧
      Tracks total (draft.next base link) report' := by
  rcases (attach_withDraft hforest h hwaits.1 hwaits.2).cases with
    ⟨hfits, hok⟩ | ⟨hfits, fault, herror⟩
  · have hnext : draft.next base link = draft.link link := if_pos hfits
    rw [hnext]
    exact .inl ⟨hok, htracks.imported, htracks.complete⟩
  · have hnext : draft.next base link = draft.drop link.child := if_neg hfits
    rw [hnext]
    exact .inr ⟨fault, herror, discard_withDraft hforest h hwaits.1 fault report,
      htracks.drop h hwaits.1 fault⟩

/-- Pending channels that all wait in the draft, each of them once. -/
structure Queue (draft : Draft) (pending : List Pending) : Prop where
  distinct : (pending.map (·.child)).Nodup
  waits : ∀ link ∈ pending, Waits draft link

theorem Queue.next {link : Pending} {pending : List Pending}
    (h : Queue draft (link :: pending)) : Queue (draft.next base link) pending := by
  obtain ⟨hnodup, hwaits⟩ := h
  rw [List.map_cons, List.nodup_cons] at hnodup
  exact
    { distinct := hnodup.2
      waits := fun other hother => (hwaits other (List.mem_cons_of_mem _ hother)).next fun heq =>
        hnodup.1 (heq ▸ List.mem_map_of_mem hother) }

/-- One step of the walk: the link is added, or the channel goes and with it what was below it. -/
theorem attachAll_cons (hforest : Forest base) (h : Fitting base draft) {link : Pending}
    (hwaits : Waits draft link) (htracks : Tracks total draft report) (pending : List Pending) :
    ∃ report', (report' = report ∨ ∃ fault, report' =
          report.discardAll link.child fault (childrenOf draft.links link.child)) ∧
      attachAll report (link :: pending) (base.withDraft draft) =
        attachAll report' pending (base.withDraft (draft.next base link)) ∧
      Tracks total (draft.next base link) report' := by
  have hcontains := contains_withDraft h hwaits.1
  rcases attach_or_discard hforest h hwaits htracks with
    ⟨hok, htracks'⟩ | ⟨fault, herror, hdiscard, htracks'⟩
  · refine ⟨report, .inl rfl, ?_, htracks'⟩
    simp only [attachAll, bind_apply, get_apply, hcontains, if_true, attempt_apply, hok]
  · refine ⟨_, .inr ⟨fault, rfl⟩, ?_, htracks'⟩
    simp only [attachAll, bind_apply, get_apply, hcontains, if_true, attempt_apply, herror,
      hdiscard]

/-- Attaching the pending channels never fails and walks from draft to draft. -/
theorem attachAll_withDraft (hforest : Forest base) {pending : List Pending}
    (hqueue : Queue draft pending) (h : Fitting base draft) (htracks : Tracks total draft report) :
    ∃ report', attachAll report pending (base.withDraft draft) =
        .ok report' (base.withDraft (pending.foldl (Draft.next base) draft)) ∧
      Tracks total (pending.foldl (Draft.next base) draft) report' := by
  induction pending generalizing draft report with
  | nil => exact ⟨report, rfl, htracks⟩
  | cons link pending ih =>
      have hlink := hqueue.waits link List.mem_cons_self
      obtain ⟨report₁, -, hstep, htracks₁⟩ := attachAll_cons hforest h hlink htracks pending
      rw [List.foldl_cons, hstep]
      exact ih hqueue.next (h.next hforest hlink) htracks₁

end Registry

end ChannelServer
