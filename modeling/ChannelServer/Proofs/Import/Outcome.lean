import ChannelServer.Proofs.Import.Survivors
import ChannelServer.Proofs.Sound

/-!
# The outcome of an import

An import takes over the accepted entries as top channels and then walks through the links they ask
for.  Together with what `Survivors` says of the walk, this gives the registry after an import as a
function of the registry before and of the batch.

## Main results

* `addAll_withDraft`: the first part of an import takes over the accepted entries.
* `importBatch_eq`: the registry and the report after an import.
* `step_importBatch`: the same for the sessions that are reachable.
-/

namespace ChannelServer

open Registry (Pending Fitting)

namespace Registry

variable {base : Registry} {total : Nat} {report : ImportReport} {entries : List Wire.Entry}

/-! ## Taking over -/

theorem defaultChannel_isOk : base.defaultChannel.isOk = true ↔ base.HasDefault := by
  constructor
  · intro h
    by_contra hnone
    rw [defaultChannel_error hnone] at h
    cases h
  · intro h
    obtain ⟨d, hd⟩ := exists_defaultChannel h
    rw [hd]
    rfl

/-- The accepted entries are top channels, so a default channel is one from before or an entry. -/
theorem hasDefault_withDraft {entries : List Wire.Entry} :
    (base.withDraft ⟨entries, []⟩).HasDefault ↔
      base.HasDefault ∨ ∃ entry ∈ entries, entry.info.flags.has .default = true := by
  constructor
  · rintro ⟨c, hc, htop, hdefault⟩
    rcases List.mem_append.mp hc with hold | hnew
    · obtain ⟨d, hd, rfl⟩ := List.mem_map.mp hold
      exact .inl ⟨d, hd, htop, hdefault⟩
    · obtain ⟨entry, hentry, rfl⟩ := List.mem_map.mp hnew
      exact .inr ⟨entry, hentry, hdefault⟩
  · rintro (⟨c, hc, htop, hdefault⟩ | ⟨entry, hentry, hdefault⟩)
    · exact ⟨_, List.mem_append_left _ (List.mem_map_of_mem hc), htop, hdefault⟩
    · exact ⟨_, List.mem_append_right _ (List.mem_map_of_mem hentry), rfl, hdefault⟩

/-- An entry is accepted exactly if it can be added to what was taken over before it. -/
theorem accepts_iff (hlimited : Limited base) {earlier : List Wire.Entry} {entry : Wire.Entry} :
    base.accepts earlier entry = true ↔
      Admissible (base.withDraft ⟨earlier, []⟩) entry.id entry.info := by
  have hvalid : entry.info.check.isOk = true ↔ entry.info.check = .ok () := by
    cases entry.info.check with
    | ok _ => exact ⟨fun _ => rfl, fun _ => rfl⟩
    | error _ => simp [Except.isOk, Except.toBool]
  have hfree : (base.withDraft ⟨earlier, []⟩).channels.get? entry.id = none ↔
      base.channels.get? entry.id = none ∧ ∀ other ∈ earlier, other.id ≠ entry.id := by
    rw [Slots.get?_eq_none, ids_withDraft, List.mem_append, not_or, Slots.get?_eq_none]
    simp only [List.mem_map, not_exists, not_and, ne_eq]
  have hroom : (base.withDraft ⟨earlier, []⟩).channels.entries.length =
      base.channels.size + earlier.length := by
    simp only [withDraft, List.length_append, List.length_map, Slots.size]
  have hcapacity : (base.withDraft ⟨earlier, []⟩).channels.capacity = base.limits.channels :=
    hlimited.capacity
  have hcontains : (!base.channels.contains entry.id) = true ↔
      base.channels.get? entry.id = none := by
    rw [Bool.not_eq_true', Slots.contains, Option.isSome_eq_false_iff, Option.isNone_iff_eq_none]
  have hsingle : (!entry.info.flags.has .default ||
        !base.defaultChannel.isOk && earlier.all (!·.info.flags.has .default)) = true ↔
      (entry.info.flags.has .default = true →
        ¬ (base.withDraft ⟨earlier, []⟩).HasDefault) := by
    rw [hasDefault_withDraft, ← defaultChannel_isOk]
    cases entry.info.flags.has .default with
    | false => simp
    | true => simp
  simp only [accepts, Bool.and_eq_true, decide_eq_true_eq, hvalid, hcontains, hsingle,
    List.all_eq_true]
  constructor
  · rintro ⟨⟨⟨⟨⟨hcheck, hid⟩, hbase⟩, hearlier⟩, hone⟩, hlt⟩
    exact
      { valid := hcheck
        notReserved := hid
        free := hfree.mpr ⟨hbase, hearlier⟩
        single := hone
        room := by
          rw [hroom, hcapacity]
          exact hlt }
  · intro h
    obtain ⟨hbase, hearlier⟩ := hfree.mp h.free
    have hlt := h.room
    rw [hroom, hcapacity] at hlt
    exact ⟨⟨⟨⟨⟨h.valid, h.notReserved⟩, hbase⟩, hearlier⟩, h.single⟩, hlt⟩

theorem withChannel_withDraft (earlier : List Wire.Entry) (entry : Wire.Entry) :
    (base.withDraft ⟨earlier, []⟩).withChannel entry.id entry.info =
      base.withDraft ⟨earlier ++ [entry], []⟩ := by
  simp only [withChannel, withDraft, Slots.append, List.map_append, List.append_assoc]
  rfl

/-- Entries without links fit as soon as their ids do. -/
theorem Fitting.unlinked {entries : List Wire.Entry}
    (h : (base.channels.ids ++ entries.map (·.id)).Nodup) : Fitting base ⟨entries, []⟩ where
  distinct := h
  nodup := List.nodup_nil
  childFound _ hlink := absurd hlink List.not_mem_nil
  parentFound _ hlink := absurd hlink List.not_mem_nil
  parentTop _ hlink := absurd hlink List.not_mem_nil

theorem Fitting.start (hsound : Sound base) : Fitting base ⟨[], []⟩ :=
  .unlinked (by rw [List.map_nil, List.append_nil]; exact hsound.forest.distinct)

theorem Fitting.accept {earlier : List Wire.Entry} {entry : Wire.Entry}
    (h : Fitting base ⟨earlier, []⟩)
    (hadd : Admissible (base.withDraft ⟨earlier, []⟩) entry.id entry.info) :
    Fitting base ⟨earlier ++ [entry], []⟩ := by
  apply Fitting.unlinked
  have hfree := Slots.get?_eq_none.mp hadd.free
  rw [ids_withDraft] at hfree
  rw [List.map_append, ← List.append_assoc]
  refine List.nodup_append.mpr ⟨h.distinct, List.nodup_singleton _, fun a ha b hb heq => ?_⟩
  rw [heq, List.mem_singleton.mp hb] at ha
  exact hfree ha

/-- What happens to an entry that is added. -/
theorem addAll_of_ok {registry registry' : Registry} {entry : Wire.Entry}
    (hok : addChannelAs entry.id entry.info registry = .ok () registry') (pending : List Pending) :
    addAll report pending (entry :: entries) registry =
      addAll (report.accept entry.id) (pending ++ links [entry]) entries registry' := by
  simp only [addAll, bind_apply, attempt_apply, hok]
  cases hparent : entry.parent with
  | none =>
      have hnone : links [entry] = [] := by simp [links, link?, hparent]
      rw [hnone, List.append_nil]
  | some parent =>
      have hsome : links [entry] = [⟨entry.id, parent⟩] := by simp [links, link?, hparent]
      rw [hsome]

/-- What happens to an entry that is refused. -/
theorem addAll_of_error {registry : Registry} {entry : Wire.Entry} {fault : Fault}
    (herror : addChannelAs entry.id entry.info registry = .error fault registry)
    (pending : List Pending) :
    addAll report pending (entry :: entries) registry =
      addAll (report.reject entry.id fault) pending entries registry := by
  simp only [addAll, bind_apply, attempt_apply, herror]

theorem Tracks.accept {earlier : List Wire.Entry} (h : Tracks total ⟨earlier, []⟩ report)
    (entry : Wire.Entry) : Tracks (total + 1) ⟨earlier ++ [entry], []⟩ (report.accept entry.id) := by
  have hcomplete := h.complete
  constructor
  · simp only [ImportReport.accept, h.imported, List.map_append, List.map_singleton]
  · simp only [ImportReport.accept, List.length_append, List.length_singleton]
    omega

theorem Tracks.reject {draft : Draft} (h : Tracks total draft report) (id : ChannelId)
    (fault : Fault) : Tracks (total + 1) draft (report.reject id fault) := by
  have hcomplete := h.complete
  constructor
  · exact h.imported
  · simp only [ImportReport.reject, List.length_append, List.length_singleton]
    omega

/-- One entry of the first part of an import: it is added at the end, or it is rejected and nothing
else happens. -/
theorem addAll_cons (hlimited : Limited base) {earlier : List Wire.Entry}
    (h : Fitting base ⟨earlier, []⟩) (report : ImportReport) (pending : List Pending)
    (entry : Wire.Entry) (entries : List Wire.Entry) :
    (base.accepts earlier entry = true ∧ Fitting base ⟨earlier ++ [entry], []⟩ ∧
      addAll report pending (entry :: entries) (base.withDraft ⟨earlier, []⟩) =
        addAll (report.accept entry.id) (pending ++ links [entry]) entries
          (base.withDraft ⟨earlier ++ [entry], []⟩)) ∨
      (base.accepts earlier entry = false ∧ ∃ fault,
        addAll report pending (entry :: entries) (base.withDraft ⟨earlier, []⟩) =
          addAll (report.reject entry.id fault) pending entries
            (base.withDraft ⟨earlier, []⟩)) := by
  have hadds := @addChannelAs_allOrNothing (base.withDraft ⟨earlier, []⟩) entry.id entry.info
  rcases hadds.cases with ⟨hadd, hok⟩ | ⟨hnot, fault, herror⟩
  · refine .inl ⟨(accepts_iff hlimited).mpr hadd, h.accept hadd, ?_⟩
    rw [addAll_of_ok hok, withChannel_withDraft]
  · refine .inr ⟨Bool.eq_false_iff.mpr fun haccepts => hnot ((accepts_iff hlimited).mp haccepts),
      fault, addAll_of_error herror _⟩

/-- The first part of an import takes over the accepted entries, and collects the links they ask
for. -/
theorem addAll_withDraft (hlimited : Limited base) (entries : List Wire.Entry)
    {earlier : List Wire.Entry} (h : Fitting base ⟨earlier, []⟩)
    (htracks : Tracks total ⟨earlier, []⟩ report) :
    ∃ report', addAll report (links earlier) entries (base.withDraft ⟨earlier, []⟩) =
        .ok (report', links (entries.foldl base.accept earlier))
          (base.withDraft ⟨entries.foldl base.accept earlier, []⟩) ∧
      Fitting base ⟨entries.foldl base.accept earlier, []⟩ ∧
      Tracks (total + entries.length) ⟨entries.foldl base.accept earlier, []⟩ report' := by
  induction entries generalizing earlier total report with
  | nil => exact ⟨report, rfl, h, htracks⟩
  | cons entry entries ih =>
      have htotal : total + (entry :: entries).length = total + 1 + entries.length := by
        rw [List.length_cons]
        omega
      rw [List.foldl_cons, htotal, accept]
      rcases addAll_cons hlimited h report (links earlier) entry entries with
        ⟨haccepts, hfit, heq⟩ | ⟨hrefuses, fault, heq⟩
      · rw [if_pos haccepts, heq, ← links_append]
        exact ih hfit (htracks.accept entry)
      · rw [if_neg (by rw [hrefuses]; exact Bool.false_ne_true), heq]
        exact ih h (htracks.reject entry.id fault)

/-! ## The whole import -/

theorem childrenOf_links (entries : List Wire.Entry) (parent : ChannelId) :
    childrenOf (links entries) parent = below entries parent := by
  have hfilter := filter_links entries (· = parent)
  rw [childrenOf, below]
  refine (congrArg (List.map (·.child)) hfilter).trans ?_
  rw [map_child_links, List.filter_filter]
  congr 1
  apply List.filter_congr
  intro entry _
  cases hparent : entry.parent with
  | none => simp
  | some parent' => simp

theorem parentOf_links {entries : List Wire.Entry} (hnodup : (entries.map (·.id)).Nodup)
    {entry : Wire.Entry} (hentry : entry ∈ entries) :
    parentOf (links entries) entry.id = entry.parent := by
  apply Option.ext
  intro parent
  rw [parentOf_eq_some (nodup_links hnodup), mem_links]
  constructor
  · rintro ⟨other, hother, hid, hparent⟩
    cases List.inj_on_of_nodup_map hnodup hother hentry hid
    exact hparent
  · exact fun hparent => ⟨entry, hentry, rfl, hparent⟩

/-- The survivors with all their links are what an import is to leave. -/
theorem withDraft_survivors (h : Fitting base ⟨base.survivors entries, []⟩) :
    base.withDraft ⟨base.survivors entries, links (base.survivors entries)⟩ =
      base.imported entries := by
  have hold : base.channels.entries.map (·.extend (links (base.survivors entries))) =
      base.channels.entries.map fun channel => { channel with
        subchannels := channel.subchannels ++ below (base.survivors entries) channel.id } :=
    List.map_congr_left fun channel _ => by rw [Channel.extend, childrenOf_links]
  have hnew : (base.survivors entries).map (·.fresh (links (base.survivors entries))) =
      (base.survivors entries).map fun entry =>
        { id := entry.id
          info := entry.info
          parent := entry.parent
          subchannels := below (base.survivors entries) entry.id } :=
    List.map_congr_left fun entry hentry => by
      rw [Wire.Entry.fresh, childrenOf_links, parentOf_links h.nodup_entries hentry]
  simp only [withDraft, imported, hold, hnew]

theorem perm_attachOrder (pending : List Pending) : (attachOrder pending).Perm pending := by
  have hparts := List.filter_append_perm
    (fun link : Pending => decide (link.parent ∉ pending.map (·.child))) pending
  simpa only [attachOrder, decide_not, Bool.not_not] using hparts

theorem withDraft_nil (base : Registry) : base.withDraft ⟨[], []⟩ = base := by
  have hsame : base.channels.entries.map (·.extend []) = base.channels.entries :=
    List.map_id'' (fun channel => by simp [Channel.extend, childrenOf]) _
  simp only [withDraft, hsame, List.map_nil, List.append_nil]

/-- The first part of an import leaves the accepted entries, and nothing is attached yet. -/
theorem addAll_eq (hsound : Sound base) (entries : List Wire.Entry) :
    ∃ report, addAll {} [] entries base =
        .ok (report, links (base.accepted entries))
          (base.withDraft ⟨base.accepted entries, []⟩) ∧
      Fitting base ⟨base.accepted entries, []⟩ ∧
      Tracks entries.length ⟨base.accepted entries, []⟩ report := by
  have htracks : Tracks 0 ⟨[], []⟩ {} := ⟨rfl, rfl⟩
  obtain ⟨report, hadd, hfit, htracks⟩ :=
    addAll_withDraft hsound.limited entries (Fitting.start hsound) htracks
  rw [withDraft_nil] at hadd
  rw [Nat.zero_add] at htracks
  exact ⟨report, hadd, hfit, htracks⟩

/-- Every accepted entry that names a parent waits once. -/
theorem queue_attachOrder {taken : List Wire.Entry} (h : Fitting base ⟨taken, []⟩) :
    Queue ⟨taken, []⟩ (attachOrder (links taken)) where
  distinct := (((perm_attachOrder _).map _).nodup_iff).mpr (nodup_links h.nodup_entries)
  waits link hlink := by
    obtain ⟨entry, hentry, hid, -⟩ := mem_links.mp ((perm_attachOrder _).mem_iff.mp hlink)
    exact ⟨List.mem_map.mpr ⟨entry, hentry, hid⟩, List.not_mem_nil⟩

/-- The registry and the report after an import. -/
theorem importBatch_eq (hsound : Sound base) (entries : List Wire.Entry) :
    ∃ report, importBatch entries base = .ok report (base.imported entries) ∧
      report.imported = (base.survivors entries).map (·.id) ∧
      report.imported.length + report.rejected.length = entries.length := by
  obtain ⟨report₁, hadd, hfit₁, htracks₁⟩ := addAll_eq hsound entries
  obtain ⟨report₂, hattach, htracks₂⟩ :=
    attachAll_withDraft hsound.forest (queue_attachOrder hfit₁) hfit₁ htracks₁
  rw [settled hfit₁] at hattach htracks₂
  have hfit₂ : Fitting base ⟨base.survivors entries, []⟩ :=
    .unlinked (((List.Sublist.refl _).append (List.filter_sublist.map _)).nodup hfit₁.distinct)
  refine ⟨report₂, ?_, htracks₂.imported, htracks₂.complete⟩
  rw [← withDraft_survivors hfit₂]
  simp only [importBatch, bind_apply, hadd]
  exact hattach

/-! ## Reading the channels afterwards -/

/-- A survivor of an import as the channel that it becomes. -/
def settler (survivors : List Wire.Entry) (entry : Wire.Entry) : Channel where
  id := entry.id
  info := entry.info
  parent := entry.parent
  subchannels := below survivors entry.id

theorem get?_imported_or (base : Registry) (entries : List Wire.Entry) (id : ChannelId) :
    (base.imported entries).channels.get? id =
      ((base.channels.get? id).map fun c =>
        { c with subchannels := c.subchannels ++ below (base.survivors entries) c.id }).or
        (((base.survivors entries).map (settler (base.survivors entries))).find?
          (Slots.named id)) := by
  have hold := Slots.get?_map base.channels id (fun c : Channel =>
    { c with subchannels := c.subchannels ++ below (base.survivors entries) c.id }) fun _ => rfl
  rw [← hold]
  exact List.find?_append

/-- A channel from before only has more subchannels. -/
theorem get?_imported_of_found {id : ChannelId} {c : Channel}
    (h : base.channels.get? id = some c) (entries : List Wire.Entry) :
    (base.imported entries).channels.get? id =
      some { c with subchannels := c.subchannels ++ below (base.survivors entries) c.id } := by
  rw [get?_imported_or, h, Option.map_some, Option.some_or]

/-- A channel that was not there before is a survivor. -/
theorem settler_of_missing {id : ChannelId} {c : Channel} (h : base.channels.get? id = none)
    (hfound : (base.imported entries).channels.get? id = some c) :
    ∃ entry ∈ base.survivors entries, c = settler (base.survivors entries) entry := by
  rw [get?_imported_or, h, Option.map_none, Option.none_or] at hfound
  obtain ⟨entry, hentry, heq⟩ := List.mem_map.mp (List.mem_of_find?_eq_some hfound)
  exact ⟨entry, hentry, heq.symm⟩

end Registry

/-- The entries that an import is to take over. -/
def Operation.batch? : Operation → Option (List Wire.Entry)
  | importBatch entries => some entries
  | importStream stream => some (Registry.readable (Wire.drain Wire.defaultLimit stream).items)
  | _ => none

namespace Session

variable {store : Store} {limits : Limits} {session : Session}

/-- An import of a batch or of a stream leaves what the import of its entries is to leave. -/
theorem registry_step_batch (store : Store) (hsound : Registry.Sound session.registry)
    {operation : Operation} {entries : List Wire.Entry} (h : operation.batch? = some entries) :
    (session.step store operation).2.registry = session.registry.imported entries := by
  have hbatch (entries : List Wire.Entry) :
      leaves (Registry.importBatch entries) session.registry =
        session.registry.imported entries := by
    obtain ⟨report, hok, -, -⟩ := Registry.importBatch_eq hsound entries
    exact leaves_of_ok hok
  rw [step_snd]
  cases operation with
  | importBatch entries =>
      cases h
      rw [Operation.perform, registry_leaves_onRegistry_bind, hbatch]
  | importStream stream =>
      cases h
      rw [Operation.perform, registry_leaves_onRegistry_bind, ← hbatch]
      exact leaves_bind_pure _ _ _
  | _ => cases h

theorem registry_step_import (store : Store) (hsound : Registry.Sound session.registry)
    {operation : Operation} (h : operation.ways = Registry.importing) :
    ∃ entries, (session.step store operation).2.registry = session.registry.imported entries := by
  cases operation with
  | importBatch entries => exact ⟨_, registry_step_batch store hsound rfl⟩
  | importStream stream => exact ⟨_, registry_step_batch store hsound rfl⟩
  | _ => exact absurd h (by simp [Operation.ways, Registry.importing])

/-- In a reachable session an import succeeds.  The registry after it has the channels from before,
then the survivors of the batch, each below the parent that it names; nothing else is different. -/
theorem step_importBatch (h : Reachable store limits session) (entries : List Wire.Entry) :
    ∃ report, session.step store (.importBatch entries) =
        (.ok (.report report), { session with registry := session.registry.imported entries }) ∧
      report.imported = (session.registry.survivors entries).map (·.id) ∧
      report.imported.length + report.rejected.length = entries.length := by
  obtain ⟨report, hok, himported, hcomplete⟩ :=
    Registry.importBatch_eq (Registry.sound_of_reachable h) entries
  refine ⟨report, ?_, himported, hcomplete⟩
  simp only [step, Operation.perform, bind_apply, onRegistry_apply, hok, pure_apply]

/-- Of a batch with its own parent, a cycle of two and a chain of three, only the first two entries
of the chain survive. -/
theorem step_importBatch_of_cycles :
    let upper : Metadata := { Metadata.preset with flags := .subchannels }
    let batch : List Wire.Entry :=
      [⟨⟨6⟩, some ⟨2⟩, upper⟩, ⟨⟨2⟩, some ⟨1⟩, upper⟩, ⟨⟨3⟩, some ⟨3⟩, upper⟩,
        ⟨⟨4⟩, some ⟨5⟩, upper⟩, ⟨⟨5⟩, some ⟨4⟩, upper⟩, ⟨⟨1⟩, none, upper⟩]
    ∃ report, ((start (.empty {})).step .none (.importBatch batch)).1 = .ok (.report report) ∧
      report.imported = [⟨2⟩, ⟨1⟩] ∧ report.rejected.length = 4 := by
  intro upper batch
  obtain ⟨report, hstep, himported, hcomplete⟩ :=
    @step_importBatch .none {} _ .start batch
  have hids : report.imported = [⟨2⟩, ⟨1⟩] := himported.trans (by decide)
  refine ⟨report, by rw [hstep], hids, ?_⟩
  rw [hids] at hcomplete
  have hsize : batch.length = 6 := rfl
  simp only [List.length_cons, List.length_nil] at hcomplete
  omega

end Session

end ChannelServer
