import ChannelServer.Proofs.Import.Outcome

/-!
# Discarding in the middle of an import

While an import attaches, a channel that cannot be attached is discarded, and a discard calls itself
for what had been attached below the channel before.  `Midway` is every moment between two pending
channels, and `DiscardCall` is every call of a discard, with the level that it is on.  Neither says
that anything goes well.

At every call the registry is the one from before together with a draft (`stage_of_call`).  The
channel is an entry of the draft without a link, so it can be destroyed, and what is below it are
entries of the draft, too.  These have links and therefore nothing below themselves.  So there are
two levels, nothing fails, and a channel from before the import is never touched.

## Main results

* `attachAll_of_midway`: these are the moments of the import.
* `discards_withDraft`: what a discard does in a draft.
* `discards_of_call`: what it does in the middle of an import.
-/

namespace ChannelServer

open Registry (Pending Fitting)

namespace Registry

/-- The registry without some channels.  All others are as they were. -/
def withoutChannels (gone : List ChannelId) (registry : Registry) : Registry :=
  { registry with
    channels :=
      { registry.channels with
        entries := registry.channels.entries.filter (·.id ∉ gone) } }

/-! ## The moments of an import -/

/-- A moment in the second part of an import: the registry, the report so far, and what is still to
be attached. -/
inductive Midway (base : Registry) (entries : List Wire.Entry) :
    Registry → ImportReport → List Pending → Prop where
  /-- Everything has been added, and nothing is attached yet. -/
  | start {registry : Registry} {report : ImportReport} {pending : List Pending}
      (added : addAll {} [] entries base = .ok (report, pending) registry) :
      Midway base entries registry report (attachOrder pending)
  /-- The next channel is not there any more. -/
  | pass {registry : Registry} {report : ImportReport} {link : Pending} {pending : List Pending}
      (before : Midway base entries registry report (link :: pending))
      (gone : registry.channels.contains link.child = false) :
      Midway base entries registry report pending
  | attach {registry registry' : Registry} {report : ImportReport} {link : Pending}
      {pending : List Pending} (before : Midway base entries registry report (link :: pending))
      (there : registry.channels.contains link.child = true)
      (attached : attach link.parent link.child registry = .ok () registry') :
      Midway base entries registry' report pending
  | discard {registry registry' registry'' : Registry} {report report' : ImportReport}
      {link : Pending} {pending : List Pending} {fault : Fault}
      (before : Midway base entries registry report (link :: pending))
      (there : registry.channels.contains link.child = true)
      (refused : attach link.parent link.child registry = .error fault registry')
      (discarded : discard link.child fault report registry' = .ok report' registry'') :
      Midway base entries registry'' report' pending

/-- A call of a discard in the second part of an import, and its level. -/
inductive DiscardCall (base : Registry) (entries : List Wire.Entry) :
    Nat → ChannelId → Fault → ImportReport → Registry → Prop where
  /-- The import discards a channel that cannot be attached. -/
  | pending {registry registry' : Registry} {report : ImportReport} {link : Pending}
      {pending : List Pending} {fault : Fault}
      (midway : Midway base entries registry report (link :: pending))
      (there : registry.channels.contains link.child = true)
      (refused : attach link.parent link.child registry = .error fault registry') :
      DiscardCall base entries 0 link.child fault report registry'
  /-- A discard that has destroyed its channel goes through what was below it. -/
  | nested {level : Nat} {parent child : ChannelId} {earlier later : List ChannelId} {fault : Fault}
      {report report' : ImportReport} {registry freed registry' : Registry}
      (call : DiscardCall base entries level parent fault report registry)
      (destroyed : destroyChannel parent registry = .ok (earlier ++ child :: later) freed)
      (siblings : earlier.foldlM
          (fun report child => discard child (.badArgument (.parentDiscarded parent)) report)
          (report.discard parent fault) freed = .ok report' registry') :
      DiscardCall base entries (level + 1) child (.badArgument (.parentDiscarded parent)) report'
        registry'

variable {base registry : Registry} {draft : Draft} {entries : List Wire.Entry}
  {report : ImportReport} {pending : List Pending}

/-- From every moment the import goes on to what it leaves in the end. -/
theorem attachAll_of_midway (h : Midway base entries registry report pending) :
    attachAll report pending registry = importBatch entries base := by
  induction h with
  | start added => simp only [importBatch, bind_apply, added]
  | pass _ gone ih =>
      rw [← ih]
      simp [attachAll, gone]
  | attach _ there attached ih =>
      rw [← ih]
      simp [attachAll, there, attached]
  | discard _ there refused discarded ih =>
      rw [← ih]
      simp [attachAll, there, refused, discarded]

/-! ## The draft at every moment -/

/-- A registry and a report that belong to a draft of accepted entries. -/
structure Stage (base : Registry) (entries : List Wire.Entry) (draft : Draft) (registry : Registry)
    (report : ImportReport) : Prop where
  drafted : registry = base.withDraft draft
  fitting : Fitting base draft
  tracks : Tracks entries.length draft report
  accepted : draft.entries ⊆ base.accepted entries

/-- The next pending channel leads to the next draft. -/
theorem Stage.next (hforest : Forest base) (h : Stage base entries draft registry report)
    {link : Pending} (hwaits : Waits draft link) {report' : ImportReport}
    (htracks : Tracks entries.length (draft.next base link) report') :
    Stage base entries (draft.next base link) (base.withDraft (draft.next base link)) report' where
  drafted := rfl
  fitting := h.fitting.next hforest hwaits
  tracks := htracks
  accepted := by
    unfold Draft.next
    split
    · exact h.accepted
    · exact List.Subset.trans (List.filter_subset_self _) h.accepted

theorem accepted_foldl_without (h : draft.entries ⊆ base.accepted entries)
    (gone : List ChannelId) :
    (gone.foldl (fun draft id => draft.without id) draft).entries ⊆ base.accepted entries := by
  rw [Draft.foldl_without]
  exact List.Subset.trans (List.filter_subset_self _) h

/-- At every moment there is a draft in which the pending channels wait. -/
theorem stage_of_midway (hsound : Sound base)
    (h : Midway base entries registry report pending) :
    ∃ draft, Stage base entries draft registry report ∧ Queue draft pending := by
  induction h with
  | start added =>
      obtain ⟨report, hadd, hfit, htracks⟩ := addAll_eq hsound entries
      cases hadd.symm.trans added
      exact ⟨_, ⟨rfl, hfit, htracks, fun _ h => h⟩, queue_attachOrder hfit⟩
  | pass _ gone ih =>
      -- What waits is there.
      obtain ⟨draft, hstage, hqueue⟩ := ih
      obtain rfl := hstage.drafted
      have hlink := hqueue.waits _ List.mem_cons_self
      cases gone.symm.trans (contains_withDraft hstage.fitting hlink.1)
  | @attach _ _ _ link _ _ _ attached ih =>
      obtain ⟨draft, hstage, hqueue⟩ := ih
      obtain rfl := hstage.drafted
      have hlink := hqueue.waits link List.mem_cons_self
      rcases attach_or_discard hsound.forest hstage.fitting hlink hstage.tracks with
        ⟨hok, htracks⟩ | ⟨_, herror, -, -⟩
      · cases hok.symm.trans attached
        exact ⟨draft.next base link, hstage.next hsound.forest hlink htracks, hqueue.next⟩
      · cases herror.symm.trans attached
  | @discard _ _ _ _ _ link _ _ _ _ refused discarded ih =>
      obtain ⟨draft, hstage, hqueue⟩ := ih
      obtain rfl := hstage.drafted
      have hlink := hqueue.waits link List.mem_cons_self
      rcases attach_or_discard hsound.forest hstage.fitting hlink hstage.tracks with
        ⟨hok, -⟩ | ⟨_, herror, hdiscard, htracks⟩
      · cases hok.symm.trans refused
      · cases herror.symm.trans refused
        cases hdiscard.symm.trans discarded
        exact ⟨draft.next base link, hstage.next hsound.forest hlink htracks, hqueue.next⟩

/-- At every call of a discard there is a draft with the channel in it, and without a link from it.
Nothing is below the channel if the call is not the outermost one. -/
theorem stage_of_call (hsound : Sound base) {level : Nat} {id : ChannelId} {fault : Fault}
    (h : DiscardCall base entries level id fault report registry) :
    ∃ draft, Stage base entries draft registry report ∧ id ∈ draft.entries.map (·.id) ∧
      id ∉ draft.links.map (·.child) ∧
      (level = 0 ∨ level = 1 ∧ childrenOf draft.links id = []) := by
  induction h with
  | @pending _ _ _ link _ _ midway _ refused =>
      obtain ⟨draft, ⟨rfl, hfit, htracks, haccepted⟩, hqueue⟩ := stage_of_midway hsound midway
      obtain ⟨hmem, htop⟩ := hqueue.waits link List.mem_cons_self
      rcases (attach_withDraft hsound.forest hfit hmem htop).cases with
        ⟨-, hok⟩ | ⟨-, _, herror⟩
      · cases hok.symm.trans refused
      · cases herror.symm.trans refused
        exact ⟨draft, ⟨rfl, hfit, htracks, haccepted⟩, hmem, htop, .inl rfl⟩
  | @nested _ parent child earlier later fault report _ _ _ _ _ destroyed siblings ih =>
      obtain ⟨draft, ⟨rfl, hfit, htracks, haccepted⟩, hmem, -, hlevel⟩ := ih
      obtain ⟨entry, hentry, rfl⟩ := List.mem_map.mp hmem
      obtain ⟨hchildren, rfl⟩ := EStateM.Result.ok.inj
        ((destroyChannel_withDraft hsound.forest hfit hentry).symm.trans destroyed)
      obtain rfl | ⟨-, hnil⟩ := hlevel
      · have hfit' := hfit.without entry.id
        have hleaves : Leaves (draft.without entry.id) (earlier ++ child :: later) :=
          hchildren ▸ hfit.leaves entry.id
        have hrest := hleaves.foldl_without
        cases (foldlM_discard hsound.forest (.badArgument (.parentDiscarded entry.id)) hfit'
          hleaves.left (report.discard entry.id fault)).symm.trans siblings
        exact ⟨_, ⟨rfl, hfit'.foldl_without earlier,
          Tracks.foldl_discard hfit' hleaves.left (htracks.discard hfit hmem fault) _,
          accepted_foldl_without (accepted_foldl_without haccepted [entry.id]) earlier⟩,
          hrest.present child List.mem_cons_self, hrest.unlinked child List.mem_cons_self,
          .inr ⟨rfl, hrest.childless child List.mem_cons_self⟩⟩
      · rw [hnil] at hchildren
        exact absurd hchildren.symm (List.append_ne_nil_of_right_ne_nil _ (List.cons_ne_nil _ _))

/-! ## What a discard does -/

/-- Only the links to an entry without a link go with it. -/
theorem links_drop (h : Fitting base draft) {id : ChannelId}
    (htop : id ∉ draft.links.map (·.child)) :
    (draft.drop id).links = draft.links.filter (·.parent ≠ id) := by
  refine List.filter_congr fun link hlink => decide_eq_decide.mpr ?_
  rw [List.mem_cons, List.mem_cons, mem_childrenOf, mem_childrenOf]
  constructor
  · rintro ⟨-, hparent⟩ heq
    exact hparent (.inl heq)
  · intro hne
    refine ⟨?_, ?_⟩
    · rintro (heq | hbelow)
      · exact htop (heq ▸ List.mem_map_of_mem hlink)
      · exact hne (congrArg Pending.parent (List.inj_on_of_nodup_map h.nodup hlink hbelow rfl))
    · rintro (heq | hbelow)
      · exact hne heq
      · exact h.parentTop link hlink (List.mem_map.mpr ⟨_, hbelow, rfl⟩)

/-- Dropping an entry without a link leaves every other channel as it is. -/
theorem withDraft_drop (h : Fitting base draft) {id : ChannelId}
    (hmem : id ∈ draft.entries.map (·.id)) (htop : id ∉ draft.links.map (·.child)) :
    base.withDraft (draft.drop id) =
      (base.withDraft draft).withoutChannels (id :: childrenOf draft.links id) := by
  have hchildren {parent : ChannelId} (hstays : parent ∉ id :: childrenOf draft.links id) :
      childrenOf (draft.drop id).links parent = childrenOf draft.links parent := by
    rw [links_drop h htop, childrenOf_filter_parent, if_neg (List.ne_of_not_mem_cons hstays)]
  have hparent {child : ChannelId} (hstays : child ∉ id :: childrenOf draft.links id) :
      parentOf (draft.drop id).links child = parentOf draft.links child := by
    rw [links_drop h htop, parentOf_filter_parent h.nodup,
      if_neg (List.not_mem_of_not_mem_cons hstays)]
  -- Whatever goes is an entry.
  have hold : ∀ c ∈ base.channels.entries, c.id ∉ id :: childrenOf draft.links id := by
    intro c hc hgone
    have hentry : c.id ∈ draft.entries.map (·.id) := by
      rcases List.mem_cons.mp hgone with heq | hbelow
      · exact heq ▸ hmem
      · exact h.childFound _ (mem_childrenOf.mp hbelow)
    exact (List.nodup_append.mp h.distinct).2.2 c.id (List.mem_map_of_mem hc) c.id hentry rfl
  have hbase : (base.channels.entries.map (·.extend draft.links)).filter
        (·.id ∉ id :: childrenOf draft.links id) =
      base.channels.entries.map (·.extend (draft.drop id).links) := by
    have hall : ∀ c ∈ base.channels.entries.map (·.extend draft.links),
        decide (c.id ∉ id :: childrenOf draft.links id) = true := by
      intro _ hextended
      obtain ⟨c, hc, rfl⟩ := List.mem_map.mp hextended
      exact decide_eq_true (hold c hc)
    rw [List.filter_eq_self.mpr hall]
    refine List.map_congr_left fun c hc => ?_
    rw [Channel.extend, Channel.extend, hchildren (hold c hc)]
  have hentries : (draft.entries.map (·.fresh draft.links)).filter
        (·.id ∉ id :: childrenOf draft.links id) =
      (draft.drop id).entries.map (·.fresh (draft.drop id).links) := by
    rw [List.filter_map]
    refine List.map_congr_left fun entry hentry => ?_
    have hstays : entry.id ∉ id :: childrenOf draft.links id :=
      of_decide_eq_true (List.mem_filter.mp hentry).2
    rw [Wire.Entry.fresh, Wire.Entry.fresh, hchildren hstays, hparent hstays]
  simp only [withoutChannels, withDraft, List.filter_append, hbase, hentries]

/-- What a discard does with a channel that looks like `c`, while these entries are imported. -/
structure Discards (base : Registry) (entries : List Wire.Entry) (id : ChannelId) (fault : Fault)
    (report : ImportReport) (registry : Registry) (c : Channel) : Prop where
  found : registry.channels.get? id = some c
  /-- The list of the channel names what is attached to it. -/
  attached : ∀ child k, registry.channels.get? child = some k →
    (k.parent = some id ↔ child ∈ c.subchannels)
  /-- Destroying the channel does not fail. -/
  destroyed : ∃ freed, destroyChannel id registry = .ok c.subchannels freed
  /-- The channel and what is attached to it go, from the registry and from the list of what was
  taken over, and they are rejected one by one. -/
  discarded : ∃ report',
    discard id fault report registry =
      .ok report' (registry.withoutChannels (id :: c.subchannels)) ∧
    report'.imported = report.imported.filter (· ∉ id :: c.subchannels) ∧
    report'.rejected = report.rejected ++ ⟨some id, fault⟩ ::
      c.subchannels.map fun child => ⟨some child, .badArgument (.parentDiscarded id)⟩
  /-- All of them came with the same import and were there until now. -/
  own : ∀ gone ∈ id :: c.subchannels, gone ∉ base.channels.ids ∧
    (∃ entry ∈ base.accepted entries, entry.id = gone) ∧ gone ∈ registry.channels.ids ∧
    gone ∈ report.imported

/-- In a draft, a discard of an entry without a link does all of this. -/
theorem discards_withDraft (hforest : Forest base) (h : Stage base entries draft registry report)
    {id : ChannelId} (hmem : id ∈ draft.entries.map (·.id))
    (htop : id ∉ draft.links.map (·.child)) (fault : Fault) :
    ∃ c, c.subchannels = childrenOf draft.links id ∧
      Discards base entries id fault report registry c := by
  obtain ⟨rfl, hfit, htracks, haccepted⟩ := h
  obtain ⟨entry, hentry, rfl⟩ := List.mem_map.mp hmem
  refine ⟨entry.fresh draft.links, rfl,
    { found := get?_withDraft_new hfit hentry
      attached := ?_
      destroyed := ⟨_, destroyChannel_withDraft hforest hfit hentry⟩
      discarded := ?_
      own := ?_ }⟩
  · intro child k hk
    rw [Wire.Entry.fresh, mem_childrenOf]
    rcases draft_cases base draft child with ⟨c, hc⟩ | ⟨hc, other, hother, rfl⟩ | ⟨hc, hnone⟩
    · -- A channel from before has its parent among the channels from before.
      rw [get?_withDraft_old hfit hc] at hk
      cases hk
      refine iff_of_false (fun hparent => ?_) fun hlink => ?_
      · obtain ⟨p, hp⟩ := hforest.parentFound hc _ hparent
        exact hfit.old_of_base hp hmem
      · exact hfit.old_of_base hc (hfit.childFound _ hlink)
    · rw [get?_withDraft_new hfit hother] at hk
      cases hk
      exact parentOf_eq_some hfit.nodup
    · rw [get?_withDraft_none hc hnone] at hk
      cases hk
  · refine ⟨report.discardAll entry.id fault (childrenOf draft.links entry.id), ?_, ?_, ?_⟩
    · rw [discard_withDraft hforest hfit hmem fault report, withDraft_drop hfit hmem htop]
      rfl
    · rw [ImportReport.discardAll_eq]
      rfl
    · rw [ImportReport.discardAll_eq]
      rfl
  · intro gone hgone
    have hgone : gone ∈ draft.entries.map (·.id) := by
      rcases List.mem_cons.mp hgone with rfl | hbelow
      · exact hmem
      · exact hfit.childFound _ (mem_childrenOf.mp hbelow)
    obtain ⟨other, hother, rfl⟩ := List.mem_map.mp hgone
    refine ⟨fun hold => ?_, ⟨other, haccepted hother, rfl⟩, ?_, ?_⟩
    · exact (List.nodup_append.mp hfit.distinct).2.2 _ hold _ hgone rfl
    · rw [ids_withDraft]
      exact List.mem_append_right _ hgone
    · rw [htracks.imported]
      exact hgone

end Registry

namespace Session

open Registry (Midway DiscardCall Discards)

variable {store : Store} {limits : Limits} {session : Session}

/-- Whenever an import into a reachable registry calls a discard, the call is on the first level or
on the one below it, where it finds nothing to call itself for.  Destroying the channel does not
fail.  Exactly the channel and what is attached to it go, all of them channels of the same import,
and each of them is rejected once: the channel with its fault, and then what was attached to it, in
the order of the list, because its parent was discarded. -/
theorem discards_of_call (h : Reachable store limits session) {entries : List Wire.Entry}
    {level : Nat} {id : ChannelId} {fault : Fault} {report : ImportReport} {registry : Registry}
    (hcall : DiscardCall session.registry entries level id fault report registry) :
    level ≤ 1 ∧ ∃ c, Discards session.registry entries id fault report registry c ∧
      (level = 1 → c.subchannels = []) := by
  have hsound := Registry.sound_of_reachable h
  obtain ⟨draft, hstage, hmem, htop, hlevel⟩ := Registry.stage_of_call hsound hcall
  obtain ⟨c, hsubchannels, hdiscards⟩ :=
    Registry.discards_withDraft hsound.forest hstage hmem htop fault
  rcases hlevel with rfl | ⟨rfl, hnil⟩
  · exact ⟨Nat.zero_le _, c, hdiscards, nofun⟩
  · exact ⟨Nat.le_refl _, c, hdiscards, fun _ => hsubchannels.trans hnil⟩

/-- Of two channels that name each other, the first is attached to the second.  The second cannot be
attached then, and when it is discarded the first goes with it. -/
theorem discards_of_mutual_parents :
    let upper : Metadata := { Metadata.preset with flags := .subchannels }
    let batch : List Wire.Entry := [⟨⟨1⟩, some ⟨2⟩, upper⟩, ⟨⟨2⟩, some ⟨1⟩, upper⟩]
    ∃ fault report registry c,
      DiscardCall (.empty {}) batch 0 ⟨2⟩ fault report registry ∧ c.subchannels = [⟨1⟩] ∧
        Discards (.empty {}) batch ⟨2⟩ fault report registry c := by
  intro upper batch
  have hsound := Registry.Sound.empty {}
  obtain ⟨report, hadd, hfit, -⟩ := Registry.addAll_eq hsound batch
  have haccepted : (Registry.empty {}).accepted batch = batch := by decide
  have horder : Registry.attachOrder (Registry.links batch) = [⟨⟨1⟩, ⟨2⟩⟩, ⟨⟨2⟩, ⟨1⟩⟩] := by decide
  rw [haccepted] at hadd hfit
  have hstart := Midway.start hadd
  rw [horder] at hstart
  -- The first channel is attached, and with it below itself the second cannot be.
  have hfirst : Registry.attach ⟨2⟩ ⟨1⟩ ((Registry.empty {}).withDraft ⟨batch, []⟩) =
      .ok () ((Registry.empty {}).withDraft ⟨batch, [⟨⟨1⟩, ⟨2⟩⟩]⟩) :=
    (@Registry.attach_withDraft _ _ hsound.forest hfit ⟨⟨1⟩, ⟨2⟩⟩ (by decide) (by decide)).ok
      (by decide)
  have hfit' : Registry.Fitting (.empty {}) ⟨batch, [⟨⟨1⟩, ⟨2⟩⟩]⟩ :=
    hfit.link (Registry.addable_of_fits hsound.forest hfit (by decide) (by decide) (by decide))
  obtain ⟨fault, hsecond⟩ := (@Registry.attach_withDraft _ _ hsound.forest hfit' ⟨⟨2⟩, ⟨1⟩⟩
    (by decide) (by decide)).error (by decide)
  have hmidway := hstart.attach (Registry.contains_withDraft hfit (by decide)) hfirst
  have hcall := DiscardCall.pending hmidway (Registry.contains_withDraft hfit' (by decide)) hsecond
  obtain ⟨-, c, hdiscards, -⟩ :=
    @discards_of_call .none {} _ .start batch _ _ _ _ _ hcall
  refine ⟨fault, report, _, c, hcall, ?_, hdiscards⟩
  have hfound := hdiscards.found.symm.trans
    (Registry.get?_withDraft_new hfit' (List.mem_cons_of_mem _ List.mem_cons_self))
  rw [Option.some.inj hfound]
  decide

end Session

end ChannelServer
