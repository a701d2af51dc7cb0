import ChannelServer.Proofs.Import.Outcome
import Mathlib.Data.List.Perm.Subperm

/-!
# What the report of an import accounts for

An entry of a batch has one of three fates: it is refused when its turn comes, or it is taken over
and discarded again, or it survives.  The report lists the survivors, then the refused entries and
after them the discarded ones.  The three lists together are the batch, so nothing is swallowed and
nothing is reported twice.

Which entries go in the walk is known from `Survivors`.  For the report it is then enough that every
step of the walk either leaves it alone or takes ids from one list and puts them into the other: the
lengths leave no room for an id that was not there.

## Main results

* `fates_perm`: the three fates together are the batch.
* `moves_attachAll`: what the walk does to the report.
* `account_of_importBatch`: in a reachable session the report accounts for every entry.
-/

namespace ChannelServer

open Registry (Pending Fitting)

namespace Registry

variable {base : Registry}

/-! ## The three fates -/

/-- The entries that are refused after others were accepted, in the order of the batch. -/
def refusedAfter (base : Registry) (earlier : List Wire.Entry) :
    List Wire.Entry → List Wire.Entry
  | [] => []
  | entry :: entries =>
    if base.accepts earlier entry then refusedAfter base (earlier ++ [entry]) entries
    else entry :: refusedAfter base earlier entries

/-- The entries that are not taken over when their turn comes, in the order of the batch. -/
def refused (base : Registry) (entries : List Wire.Entry) : List Wire.Entry :=
  base.refusedAfter [] entries

/-- The entries that are taken over and do not survive, in the order of the batch. -/
def discarded (base : Registry) (entries : List Wire.Entry) : List Wire.Entry :=
  (base.accepted entries).filter (!base.survives (base.accepted entries) ·)

private theorem accepted_refused_perm (earlier entries : List Wire.Entry) :
    (entries.foldl base.accept earlier ++ base.refusedAfter earlier entries).Perm
      (earlier ++ entries) := by
  induction entries generalizing earlier with
  | nil => exact .refl _
  | cons entry entries ih =>
      rw [List.foldl_cons, refusedAfter, accept]
      split
      · refine (ih (earlier ++ [entry])).trans ?_
        rw [List.append_assoc]
        exact .refl _
      · exact List.perm_middle.trans (((ih earlier).cons entry).trans List.perm_middle.symm)

/-- Every entry of a batch has one fate. -/
theorem fates_perm (base : Registry) (entries : List Wire.Entry) :
    (base.survivors entries ++ base.discarded entries ++ base.refused entries).Perm entries :=
  ((List.filter_append_perm _ _).append_right _).trans (accepted_refused_perm [] entries)

theorem accepted_sublist (base : Registry) (entries : List Wire.Entry) :
    (base.accepted entries).Sublist entries := by
  have hfoldl (earlier entries : List Wire.Entry) :
      (entries.foldl base.accept earlier).Sublist (earlier ++ entries) := by
    induction entries generalizing earlier with
    | nil =>
        rw [List.append_nil]
        exact .refl _
    | cons entry entries ih =>
        rw [List.foldl_cons, accept]
        split
        · have hrest := ih (earlier ++ [entry])
          rwa [List.append_assoc] at hrest
        · exact (ih earlier).trans ((List.Sublist.refl earlier).append (List.sublist_cons_self _ _))
  exact hfoldl [] entries

theorem survivors_sublist (base : Registry) (entries : List Wire.Entry) :
    (base.survivors entries).Sublist entries :=
  List.filter_sublist.trans (accepted_sublist base entries)

end Registry

/-! ## The report -/

namespace ImportReport

/-- Some ids are listed as taken over no more, and as rejected after everything else. -/
def Moves (report report' : ImportReport) : Prop :=
  ∃ gone : List ChannelId,
    report'.rejected.map (·.channel) = report.rejected.map (·.channel) ++ gone.map some ∧
    report'.imported = report.imported.filter (· ∉ gone)

theorem Moves.refl (report : ImportReport) : report.Moves report :=
  ⟨[], by rw [List.map_nil, List.append_nil], by simp⟩

theorem Moves.trans {report report' report'' : ImportReport} (h : report.Moves report')
    (h' : report'.Moves report'') : report.Moves report'' := by
  obtain ⟨gone, hrejected, himported⟩ := h
  obtain ⟨gone', hrejected', himported'⟩ := h'
  refine ⟨gone ++ gone', ?_, ?_⟩
  · rw [hrejected', hrejected, List.map_append, List.append_assoc]
  · rw [himported', himported, List.filter_filter]
    apply List.filter_congr
    intro id _
    simp [Bool.and_comm]

theorem moves_discardAll (report : ImportReport) (id : ChannelId) (fault : Fault)
    (children : List ChannelId) : report.Moves (report.discardAll id fault children) := by
  rw [discardAll_eq]
  exact ⟨id :: children, by simp, rfl⟩

end ImportReport

namespace Registry

variable {base registry' : Registry} {draft : Draft} {total : Nat} {report report' : ImportReport}

/-- Each pending channel leaves the report alone, or it goes and with it what was below it. -/
theorem moves_attachAll (hforest : Forest base) {pending : List Pending}
    (hqueue : Queue draft pending) (h : Fitting base draft) (htracks : Tracks total draft report)
    (hok : attachAll report pending (base.withDraft draft) = .ok report' registry') :
    report.Moves report' := by
  induction pending generalizing draft report with
  | nil =>
      cases hok
      exact .refl _
  | cons link pending ih =>
      have hlink := hqueue.waits link List.mem_cons_self
      obtain ⟨report₁, hreport, hstep, htracks₁⟩ := attachAll_cons hforest h hlink htracks pending
      rw [hstep] at hok
      have hrest := ih hqueue.next (h.next hforest hlink) htracks₁ hok
      rcases hreport with rfl | ⟨fault, rfl⟩
      · exact hrest
      · exact (report.moves_discardAll link.child fault _).trans hrest

section Batch

variable {entries : List Wire.Entry}

/-- What the first part of an import rejects are the refused entries. -/
theorem rejected_addAll (hlimited : Limited base) {earlier : List Wire.Entry}
    (h : Fitting base ⟨earlier, []⟩) {pending : List Pending} {answer : ImportReport × List Pending}
    (hok : addAll report pending entries (base.withDraft ⟨earlier, []⟩) = .ok answer registry') :
    answer.1.rejected.map (·.channel) =
      report.rejected.map (·.channel) ++ (base.refusedAfter earlier entries).map (some ·.id) := by
  induction entries generalizing earlier report pending with
  | nil =>
      cases hok
      simp [refusedAfter]
  | cons entry entries ih =>
      rw [refusedAfter]
      rcases addAll_cons hlimited h report pending entry entries with
        ⟨haccepts, hfit, heq⟩ | ⟨hrefuses, fault, heq⟩
      · rw [heq] at hok
        rw [if_pos haccepts, ih hfit hok]
        rfl
      · rw [heq] at hok
        rw [if_neg (by rw [hrefuses]; exact Bool.false_ne_true), ih h hok]
        simp [ImportReport.reject]

/-- The import as its two parts. -/
theorem importBatch_parts (hsound : Sound base)
    (hok : importBatch entries base = .ok report registry') :
    ∃ report₁ : ImportReport,
      report₁.imported = (base.accepted entries).map (·.id) ∧
      report₁.rejected.map (·.channel) = (base.refused entries).map (some ·.id) ∧
      ((base.accepted entries).map (·.id)).Nodup ∧ report₁.Moves report := by
  obtain ⟨report₁, hadd, hfit₁, htracks₁⟩ := addAll_eq hsound entries
  have hrejected := rejected_addAll hsound.limited (Fitting.start hsound)
    ((congrArg (addAll {} [] entries) (withDraft_nil base)).trans hadd)
  simp only [importBatch, bind_apply, hadd] at hok
  exact ⟨report₁, htracks₁.imported, hrejected, hfit₁.nodup_entries,
    moves_attachAll hsound.forest (queue_attachOrder hfit₁) hfit₁ htracks₁ hok⟩

/-- An import rejects the refused entries in the order of the batch, and then each of the discarded
ones once. -/
theorem rejected_importBatch (hsound : Sound base)
    (hok : importBatch entries base = .ok report registry') :
    ∃ gone : List ChannelId, gone.Nodup ∧ gone.Perm ((base.discarded entries).map (·.id)) ∧
      report.rejected.map (·.channel) =
        (base.refused entries).map (some ·.id) ++ gone.map some := by
  obtain ⟨report₁, himported₁, hrejected₁, hnodup, gone, hrejected, himported⟩ :=
    importBatch_parts hsound hok
  obtain ⟨report', hok', hsurvivors, hcomplete⟩ := importBatch_eq hsound entries
  cases hok'.symm.trans hok
  rw [hrejected₁] at hrejected
  -- An accepted id that is not listed any more has gone.
  have hgone : (base.discarded entries).map (·.id) ⊆ gone := by
    intro id hid
    obtain ⟨entry, hentry, rfl⟩ := List.mem_map.mp hid
    obtain ⟨haccepted, hdropped⟩ := List.mem_filter.mp hentry
    by_contra hstays
    have hlisted : entry.id ∈ (base.survivors entries).map (·.id) := by
      rw [← hsurvivors, himported, himported₁]
      exact List.mem_filter.mpr ⟨List.mem_map_of_mem haccepted, decide_eq_true hstays⟩
    obtain ⟨other, hother, hsame⟩ := List.mem_map.mp hlisted
    obtain ⟨haccepted', hsurvives⟩ := List.mem_filter.mp hother
    cases List.inj_on_of_nodup_map hnodup haccepted' haccepted hsame
    rw [hsurvives] at hdropped
    cases hdropped
  -- The lengths leave no room for anything else to go.
  have hlength : gone.length ≤ ((base.discarded entries).map (·.id)).length := by
    have hfates := (base.fates_perm entries).length_eq
    have hlisted := congrArg List.length hrejected
    rw [hsurvivors] at hcomplete
    simp only [List.length_map, List.length_append] at hfates hlisted hcomplete ⊢
    omega
  have hdiscarded : ((base.discarded entries).map (·.id)).Nodup :=
    (List.filter_sublist.map _).nodup hnodup
  have hperm := (hdiscarded.subperm hgone).perm_of_length_le hlength
  exact ⟨gone, hperm.nodup_iff.mp hdiscarded, hperm.symm, hrejected⟩

end Batch

theorem ids_imported_eq (base : Registry) (entries : List Wire.Entry) :
    (base.imported entries).channels.ids =
      base.channels.ids ++ (base.survivors entries).map (·.id) := by
  simp only [imported, Slots.ids, List.map_append, List.map_map]
  rfl

/-- A report that accounts for every entry of a batch, and a registry that agrees with it. -/
structure Accounts (base : Registry) (entries : List Wire.Entry) (report : ImportReport)
    (registry : Registry) : Prop where
  complete : report.imported.length + report.rejected.length = entries.length
  distinct : report.imported.Nodup
  /-- The survivors are a part of the batch in its order, and so is the list of their ids. -/
  inOrder : (base.survivors entries).Sublist entries
  imported : report.imported = (base.survivors entries).map (·.id)
  /-- The channels that came with the batch are those listed as taken over. -/
  added : registry.channels.ids = base.channels.ids ++ report.imported
  /-- No channel from before is lost, and none of them is moved or altered. -/
  kept : ∀ id c, base.channels.get? id = some c → ∃ children,
    registry.channels.get? id = some { c with subchannels := c.subchannels ++ children }
  /-- Every entry has one fate. -/
  fates : (base.survivors entries ++ base.discarded entries ++ base.refused entries).Perm entries
  /-- The refused entries come first, and each of the discarded ones is listed once. -/
  rejected : ∃ gone : List ChannelId, gone.Nodup ∧
    gone.Perm ((base.discarded entries).map (·.id)) ∧
    report.rejected.map (·.channel) = (base.refused entries).map (some ·.id) ++ gone.map some

theorem Accounts.named {report : ImportReport} {registry : Registry} {entries : List Wire.Entry}
    (h : Accounts base entries report registry) {rejection : Rejection}
    (hrejection : rejection ∈ report.rejected) :
    ∃ entry ∈ entries, rejection.channel = some entry.id := by
  obtain ⟨gone, -, hperm, hrejected⟩ := h.rejected
  have hmem : rejection.channel ∈ report.rejected.map (·.channel) :=
    List.mem_map_of_mem hrejection
  rw [hrejected] at hmem
  rcases List.mem_append.mp hmem with hrefused | hgone
  · obtain ⟨entry, hentry, hid⟩ := List.mem_map.mp hrefused
    exact ⟨entry, h.fates.subset (List.mem_append_right _ hentry), hid.symm⟩
  · obtain ⟨id, hid, hsome⟩ := List.mem_map.mp hgone
    obtain ⟨entry, hentry, rfl⟩ := List.mem_map.mp (hperm.subset hid)
    exact ⟨entry, h.fates.subset (List.mem_append_left _ (List.mem_append_right _ hentry)),
      hsome.symm⟩

/-- An import in a sound registry accounts for every entry. -/
theorem accounts_of_sound (hsound : Sound base) {entries : List Wire.Entry} {report : ImportReport}
    (hok : importBatch entries base = .ok report registry') :
    Accounts base entries report registry' := by
  obtain ⟨report', hok', himported, hcomplete⟩ := importBatch_eq hsound entries
  cases hok'.symm.trans hok
  obtain ⟨_, _, _, hnodup, _⟩ := importBatch_parts hsound hok
  exact
    { complete := hcomplete
      distinct := by
        rw [himported]
        exact (List.filter_sublist.map _).nodup hnodup
      inOrder := survivors_sublist base entries
      imported := himported
      added := by rw [himported, ids_imported_eq]
      kept := fun _ _ hfound => ⟨_, get?_imported_of_found hfound entries⟩
      fates := fates_perm base entries
      rejected := rejected_importBatch hsound hok }

end Registry

namespace Session

variable {store : Store} {limits : Limits} {session : Session}

/-- In a reachable session an import succeeds, and its report accounts for every entry: each one is
refused, or discarded again, or it survives, and every rejection names one of them. -/
theorem account_of_importBatch (h : Reachable store limits session) (entries : List Wire.Entry) :
    ∃ report, session.step store (.importBatch entries) =
        (.ok (.report report), { session with registry := session.registry.imported entries }) ∧
      Registry.Accounts session.registry entries report (session.registry.imported entries) ∧
      ∀ rejection ∈ report.rejected, ∃ entry ∈ entries, rejection.channel = some entry.id := by
  have hsound := Registry.sound_of_reachable h
  obtain ⟨report, hok, -, -⟩ := Registry.importBatch_eq hsound entries
  have haccounts := Registry.accounts_of_sound hsound hok
  refine ⟨report, ?_, haccounts, fun _ hrejection => haccounts.named hrejection⟩
  simp only [step, Operation.perform, bind_apply, onRegistry_apply, hok, pure_apply]

/-- The first entry is discarded for its parent, yet its id is refused to the second.  The last one
is discarded because the channel it names is itself below another. -/
theorem account_of_discarded_twice :
    let upper : Metadata := { Metadata.preset with flags := .subchannels }
    let batch : List Wire.Entry :=
      [⟨⟨5⟩, some ⟨77⟩, upper⟩, ⟨⟨5⟩, none, upper⟩, ⟨⟨2⟩, some ⟨1⟩, upper⟩, ⟨⟨1⟩, none, upper⟩,
        ⟨⟨3⟩, some ⟨2⟩, upper⟩]
    ∃ report, ((start (.empty {})).step .none (.importBatch batch)).1 = .ok (.report report) ∧
      report.imported = [⟨2⟩, ⟨1⟩] ∧
      (report.rejected.map (·.channel)).Perm [some ⟨5⟩, some ⟨5⟩, some ⟨3⟩] := by
  intro upper batch
  obtain ⟨report, hstep, haccounts, -⟩ := @account_of_importBatch .none {} _ .start batch
  obtain ⟨gone, -, hperm, hrejected⟩ := haccounts.rejected
  have hrefused : (Registry.empty {}).refused batch = [⟨⟨5⟩, none, upper⟩] := by decide
  have hdiscarded : (Registry.empty {}).discarded batch =
      [⟨⟨5⟩, some ⟨77⟩, upper⟩, ⟨⟨3⟩, some ⟨2⟩, upper⟩] := by decide
  refine ⟨report, by rw [hstep], haccounts.imported.trans (by decide), ?_⟩
  change gone.Perm (((Registry.empty {}).discarded batch).map (·.id)) at hperm
  rw [hdiscarded] at hperm
  rw [hrejected]
  change (((Registry.empty {}).refused batch).map (some ·.id) ++ gone.map some).Perm _
  rw [hrefused]
  exact (hperm.map some).append_left [some ⟨5⟩]

end Session

end ChannelServer
