import ChannelServer.Proofs.Import.Account

/-!
# Entries that stand in each other's way

Whether an entry of a batch is taken over is decided before any link is tried.  So an entry that is
discarded later has already kept its id, its slot and the place of the default channel from the
entries after it.  An entry that was refused for this may well be imported once the import is over.

This is the only way in which an import alone does better than the batch.  An entry that was taken
over and discarded is never imported alone afterwards: the channels that could be its parent are the
same as before.

## Main results

* `survives_of_survives_alone`: an import makes no parent for what it discarded.
* `blocked_of_accepted_alone`: why an entry is refused in a batch and not afterwards.
* `displaced_of_importedAlone`: an entry that would be imported alone was kept out by another one.
-/

namespace ChannelServer

open Registry (Pending Fitting)

namespace Registry

variable {base : Registry} {before later entries : List Wire.Entry} {entry other : Wire.Entry}

/-! ## Walking through a batch -/

theorem accepted_append (base : Registry) (before later : List Wire.Entry) :
    base.accepted (before ++ later) = later.foldl base.accept (base.accepted before) :=
  List.foldl_append

/-- What is accepted of the beginning of a batch is accepted of the batch. -/
theorem accepted_isPrefix (base : Registry) (before later : List Wire.Entry) :
    base.accepted before <+: base.accepted (before ++ later) := by
  rw [accepted_append]
  generalize base.accepted before = earlier
  induction later generalizing earlier with
  | nil => exact List.prefix_rfl
  | cons entry later ih =>
      rw [List.foldl_cons, accept]
      split
      · exact (List.prefix_append _ _).trans (ih _)
      · exact ih _

theorem mem_accepted_of_accepts (h : base.accepts (base.accepted before) entry = true) :
    entry ∈ base.accepted (before ++ entry :: later) := by
  have hprefix := accepted_isPrefix base (before ++ [entry]) later
  rw [List.append_assoc, List.singleton_append] at hprefix
  apply hprefix.subset
  rw [accepted_append, List.foldl_cons, List.foldl_nil, accept, if_pos h]
  exact List.mem_append_right _ List.mem_cons_self

/-- An entry is imported alone exactly if it is accepted and survives with nothing else. -/
theorem mem_survivors_singleton : entry ∈ base.survivors [entry] ↔
    base.accepts [] entry = true ∧ base.survives [entry] entry = true := by
  have haccepted : base.accepted [entry] = if base.accepts [] entry then [entry] else [] := rfl
  rw [survivors, List.mem_filter, haccepted]
  split
  · rename_i haccepts
    simp only [List.mem_singleton, true_and, haccepts]
  · rename_i hrefuses
    simp only [List.not_mem_nil, false_and, hrefuses, Bool.false_eq_true]

/-! ## Parents -/

/-- A channel from which subchannels inherit can have subchannels itself only if it is on top. -/
theorem takes_iff (hforest : Forest base) {parent : ChannelId} :
    (∃ flags, base.effectiveFlags parent = .ok flags ∧ flags.has .subchannels = true) ↔
      ∃ p, base.channels.get? parent = some p ∧ p.parent = none ∧
        p.info.flags.has .subchannels = true := by
  constructor
  · rintro ⟨flags, hflags, htakes⟩
    cases hfound : base.channels.get? parent with
    | none =>
        simp only [effectiveFlags, channel_eq_error hfound] at hflags
        cases hflags
    | some p =>
        cases htop : p.parent with
        | none =>
            rw [effectiveFlags_of_top hfound htop] at hflags
            cases hflags
            exact ⟨p, rfl, htop, htakes⟩
        | some upper =>
            obtain ⟨u, hu⟩ := hforest.parentFound hfound upper htop
            rw [effectiveFlags_of_below hfound htop hu] at hflags
            cases hflags
            rw [not_inherits_subchannels] at htakes
            cases htakes
  · rintro ⟨p, hfound, htop, htakes⟩
    exact ⟨_, effectiveFlags_of_top hfound htop, htakes⟩

/-- What can have subchannels after an import could have them while the import attached. -/
theorem bears_imported (hforest' : Forest (base.imported entries))
    (hbelow : entry.parent ≠ none) {parent : ChannelId}
    (h : (base.imported entries).bears [entry] parent = true) :
    base.bears (base.accepted entries) parent = true := by
  have htakes : ∃ flags, (base.imported entries).effectiveFlags parent = .ok flags ∧
      flags.has .subchannels = true := by
    unfold bears at h
    split at h
    · exact ⟨_, ‹_›, h⟩
    · simp only [List.any_cons, List.any_nil, Bool.or_false, Bool.and_eq_true,
        Option.isNone_iff_eq_none] at h
      exact absurd h.1.2 hbelow
  obtain ⟨p, hp, htop, htakes⟩ := (takes_iff hforest').mp htakes
  cases hold : base.channels.get? parent with
  | some c =>
      rw [get?_imported_of_found hold] at hp
      cases hp
      simp only [bears, effectiveFlags_of_top hold htop]
      exact htakes
  | none =>
      obtain ⟨survivor, hsurvivor, rfl⟩ := settler_of_missing hold hp
      have hmissing : base.effectiveFlags parent = .error (.missing (.channel parent)) := by
        simp [effectiveFlags, channel_eq_error hold, bind, Except.bind]
      have hid : survivor.id = parent := Slots.id_of_get? hp
      simp only [bears, hmissing, List.any_eq_true, Bool.and_eq_true, decide_eq_true_eq,
        Option.isNone_iff_eq_none]
      exact ⟨survivor, List.mem_of_mem_filter hsurvivor, ⟨hid, htop⟩, htakes⟩

/-- An entry that was taken over and survives alone after the import survives the import. -/
theorem survives_of_survives_alone (hforest' : Forest (base.imported entries))
    (h : (base.imported entries).survives [entry] entry = true) :
    base.survives (base.accepted entries) entry = true := by
  cases hparent : entry.parent with
  | none => exact survives_of_top hparent
  | some parent =>
      rw [survives_of_below hparent, Bool.and_eq_true] at h ⊢
      have hbelow : entry.parent ≠ none := by
        rw [hparent]
        exact Option.some_ne_none parent
      exact ⟨h.1, bears_imported hforest' hbelow h.2⟩

/-! ## What keeps an entry out -/

/-- Of the entries taken over so far one keeps another entry out: by its id, as the default channel,
or by its slot. -/
def Blocks (base : Registry) (taken : List Wire.Entry) (other entry : Wire.Entry) : Prop :=
  other.id = entry.id ∨
    other.info.flags.has .default = true ∧ entry.info.flags.has .default = true ∨
    base.limits.channels ≤ base.channels.size + taken.length

theorem size_imported (base : Registry) (entries : List Wire.Entry) :
    (base.imported entries).channels.size =
      base.channels.size + (base.survivors entries).length := by
  simp only [imported, Slots.size, List.length_append, List.length_map]

theorem contains_iff {id : ChannelId} : base.channels.contains id = true ↔
    id ∈ base.channels.ids := by
  rw [Slots.contains, Option.isSome_iff_ne_none, ne_eq, Slots.get?_eq_none, not_not]

theorem defaultChannel_imported (h : base.defaultChannel.isOk = true) :
    (base.imported entries).defaultChannel.isOk = true := by
  obtain ⟨c, hc, htop, hflag⟩ := defaultChannel_isOk.mp h
  exact defaultChannel_isOk.mpr
    ⟨_, List.mem_append_left _ (List.mem_map_of_mem hc), htop, hflag⟩

/-- A survivor with the default flag is the default channel after the import. -/
theorem defaultChannel_of_survivor (hsurvivor : other ∈ base.survivors entries)
    (hdefault : other.info.flags.has .default = true) :
    (base.imported entries).defaultChannel.isOk = true := by
  have htop : other.parent = none := by
    cases hparent : other.parent with
    | none => rfl
    | some parent =>
        have hsurvives := (List.mem_filter.mp hsurvivor).2
        rw [survives_of_below hparent, hdefault] at hsurvives
        cases hsurvives
  exact defaultChannel_isOk.mpr
    ⟨_, List.mem_append_right _ (List.mem_map_of_mem hsurvivor), htop, hdefault⟩

theorem mem_discarded (haccepted : other ∈ base.accepted entries)
    (hgone : other ∉ base.survivors entries) : other ∈ base.discarded entries := by
  refine List.mem_filter.mpr ⟨haccepted, ?_⟩
  rw [Bool.not_eq_true', Bool.eq_false_iff]
  exact fun hsurvives => hgone (List.mem_filter.mpr ⟨haccepted, hsurvives⟩)

/-- If all that is accepted of the beginning of a batch survives, the survivors are no fewer. -/
theorem length_accepted_le (h : ∀ other ∈ base.accepted before,
      other ∈ base.survivors (before ++ later)) :
    (base.accepted before).length ≤ (base.survivors (before ++ later)).length := by
  have hall : (base.accepted before).filter (base.survives (base.accepted (before ++ later))) =
      base.accepted before :=
    List.filter_eq_self.mpr fun other hother => (List.mem_filter.mp (h other hother)).2
  have hpart := (accepted_isPrefix base before later).sublist.filter
    (base.survives (base.accepted (before ++ later)))
  rw [hall] at hpart
  exact hpart.length_le

/-- An entry that is refused in a batch and would be accepted alone after the import is kept out by
an entry that the import discards. -/
theorem blocked_of_accepted_alone
    (hrefuses : base.accepts (base.accepted before) entry = false)
    (halone : (base.imported (before ++ later)).accepts [] entry = true) :
    ∃ other ∈ base.accepted before, other ∈ base.discarded (before ++ later) ∧
      base.Blocks (base.accepted before) other entry := by
  by_contra hnone
  have hstays (other : Wire.Entry) (hother : other ∈ base.accepted before)
      (hblocks : base.Blocks (base.accepted before) other entry) :
      other ∈ base.survivors (before ++ later) := by
    by_contra hgone
    have htaken := (accepted_isPrefix base before later).subset hother
    exact hnone ⟨other, hother, mem_discarded htaken hgone, hblocks⟩
  simp only [accepts, Bool.and_eq_true, decide_eq_true_eq, Bool.not_eq_true', List.all_nil,
    Bool.and_true, List.length_nil, Nat.add_zero] at halone
  obtain ⟨⟨⟨⟨hvalid, hnamed⟩, hfree⟩, hsingle⟩, hroom⟩ := halone
  rw [Slots.contains, Option.isSome_eq_false_iff, Option.isNone_iff_eq_none, Slots.get?_eq_none,
    ids_imported_eq, List.mem_append, not_or] at hfree
  have hold : base.channels.contains entry.id = false := by
    rw [Slots.contains, Option.isSome_eq_false_iff, Option.isNone_iff_eq_none, Slots.get?_eq_none]
    exact hfree.1
  have hdistinct (other : Wire.Entry) (hother : other ∈ base.accepted before) :
      other.id ≠ entry.id :=
    fun hid => hfree.2 (hid ▸ List.mem_map_of_mem (hstays other hother (.inl hid)))
  have hone : entry.info.flags.has .default = false ∨ base.defaultChannel.isOk = false ∧
      ∀ other ∈ base.accepted before, other.info.flags.has .default = false := by
    cases hdefault : entry.info.flags.has .default with
    | false => exact .inl rfl
    | true =>
        rw [hdefault, Bool.not_true, Bool.false_or, Bool.not_eq_true'] at hsingle
        refine .inr ⟨?_, fun other hother => ?_⟩
        · rw [Bool.eq_false_iff] at hsingle ⊢
          exact fun h => hsingle (defaultChannel_imported h)
        · rw [Bool.eq_false_iff] at hsingle ⊢
          exact fun h => hsingle
            (defaultChannel_of_survivor (hstays other hother (.inr (.inl ⟨h, hdefault⟩))) h)
  have hslot : base.channels.size + (base.accepted before).length < base.limits.channels := by
    by_contra hfull
    have hlength := length_accepted_le fun other hother =>
      hstays other hother (.inr (.inr (Nat.not_lt.mp hfull)))
    have hsize := size_imported base (before ++ later)
    have hlimits : (base.imported (before ++ later)).limits = base.limits := rfl
    rw [hlimits, hsize] at hroom
    omega
  rw [Bool.eq_false_iff] at hrefuses
  apply hrefuses
  simp only [accepts, Bool.and_eq_true, decide_eq_true_eq, Bool.not_eq_true', Bool.or_eq_true,
    List.all_eq_true]
  exact ⟨⟨⟨⟨⟨hvalid, hnamed⟩, hold⟩, hdistinct⟩, hone⟩, hslot⟩

/-- An entry that would be imported alone after an import was refused in the batch, and it was kept
out by an entry that was discarded later. -/
theorem blocked_of_alone (hforest' : Forest (base.imported (before ++ entry :: later)))
    (halone : entry ∈ (base.imported (before ++ entry :: later)).survivors [entry]) :
    base.accepts (base.accepted before) entry = false ∧
      ∃ other ∈ base.accepted before, other ∈ base.discarded (before ++ entry :: later) ∧
        base.Blocks (base.accepted before) other entry := by
  obtain ⟨haccepts, hsurvives⟩ := mem_survivors_singleton.mp halone
  have hrefuses : base.accepts (base.accepted before) entry = false := by
    rw [Bool.eq_false_iff]
    intro htaken
    have hsurvivor : entry ∈ base.survivors (before ++ entry :: later) :=
      List.mem_filter.mpr
        ⟨mem_accepted_of_accepts htaken, survives_of_survives_alone hforest' hsurvives⟩
    -- A survivor holds its id itself.
    have hheld : (base.imported (before ++ entry :: later)).channels.contains entry.id = true := by
      rw [contains_iff, ids_imported_eq]
      exact List.mem_append_right _ (List.mem_map_of_mem hsurvivor)
    simp only [accepts, hheld, Bool.not_true, Bool.and_false, Bool.false_and] at haccepts
    cases haccepts
  exact ⟨hrefuses, blocked_of_accepted_alone hrefuses haccepts⟩

end Registry

namespace Session

variable {store : Store} {limits : Limits} {session : Session}

/-- If an entry of a batch would be imported alone into the registry that the import leaves, it was
refused when the channels were added, and an entry taken over before it and discarded afterwards
stood in its way. -/
theorem displaced_of_importedAlone (h : Reachable store limits session)
    {before later : List Wire.Entry} {entry : Wire.Entry} {report : ImportReport}
    (halone : ((session.step store (.importBatch (before ++ entry :: later))).2.step store
      (.importBatch [entry])).1 = .ok (.report report))
    (himported : entry.id ∈ report.imported) :
    session.registry.accepts (session.registry.accepted before) entry = false ∧
      ∃ other ∈ session.registry.accepted before,
        other ∈ session.registry.discarded (before ++ entry :: later) ∧
        session.registry.Blocks (session.registry.accepted before) other entry := by
  obtain ⟨first, hfirst, -⟩ := step_importBatch h (before ++ entry :: later)
  have hafter := h.step (.importBatch (before ++ entry :: later))
  rw [hfirst] at halone hafter
  obtain ⟨second, hsecond, hids, -⟩ := step_importBatch hafter [entry]
  rw [hsecond] at halone
  cases halone
  rw [hids] at himported
  obtain ⟨survivor, hsurvivor, -⟩ := List.mem_map.mp himported
  have hsame : survivor = entry :=
    List.mem_singleton.mp ((Registry.survivors_sublist _ _).subset hsurvivor)
  rw [hsame] at hsurvivor
  exact Registry.blocked_of_alone (Registry.sound_of_reachable hafter).forest hsurvivor

/-- What an import answers, from what it does to the registry. -/
theorem answer_importBatch {entries : List Wire.Entry} {report : ImportReport}
    (h : (Registry.importBatch entries).run' session.registry = some report) :
    (session.step store (.importBatch entries)).1 = .ok (.report report) := by
  obtain ⟨registry', hok⟩ := exists_ok_of_run h
  simp only [step, Operation.perform, bind_apply, onRegistry_apply, hok, pure_apply]

/-- A default channel that names a missing parent is discarded, and until then it keeps the next
entry from being the default channel. -/
theorem displaced_of_stray_default :
    let stray : Wire.Entry := ⟨⟨1⟩, some ⟨77⟩, { Metadata.preset with flags := .default }⟩
    let lobby : Wire.Entry := ⟨⟨2⟩, none, { Metadata.preset with flags := .default }⟩
    (Registry.empty {}).accepts [stray] lobby = false ∧
      ∃ other ∈ [stray], other ∈ (Registry.empty {}).discarded [stray, lobby] ∧
        (Registry.empty {}).Blocks [stray] other lobby := by
  intro stray lobby
  have halone := @answer_importBatch .none
    ((start (.empty {})).step .none (.importBatch [stray, lobby])).2 [lobby]
    { imported := [⟨2⟩], rejected := [] } (by decide +kernel)
  have hdisplaced := @displaced_of_importedAlone .none {} _ .start [stray] [] lobby _ halone
    List.mem_cons_self
  have htaken : (Registry.empty {}).accepted [stray] = [stray] := by decide
  change (Registry.empty {}).accepts ((Registry.empty {}).accepted [stray]) lobby = false ∧
    ∃ other ∈ (Registry.empty {}).accepted [stray],
      other ∈ (Registry.empty {}).discarded [stray, lobby] ∧
      (Registry.empty {}).Blocks ((Registry.empty {}).accepted [stray]) other lobby at hdisplaced
  rwa [htaken] at hdisplaced

/-- The first entry is discarded in the end.  The others were refused for its flag, for its id and
for its slot, and each of them is imported alone into what is left. -/
theorem importedAlone_after_refusal :
    let session := start (.empty { channels := 1 })
    let stray : Wire.Entry := ⟨⟨1⟩, some ⟨77⟩, { Metadata.preset with flags := .default }⟩
    let lobby : Wire.Entry := ⟨⟨2⟩, none, { Metadata.preset with flags := .default }⟩
    let twin : Wire.Entry := ⟨⟨1⟩, none, .preset⟩
    let third : Wire.Entry := ⟨⟨3⟩, none, .preset⟩
    (session.step .none (.importBatch [stray, lobby, twin, third])).1 =
        .ok (.report
          { imported := []
            rejected :=
              [⟨some ⟨2⟩, .badArgument (.defaultExists ⟨1⟩)⟩,
                ⟨some ⟨1⟩, .badArgument (.idTaken ⟨1⟩)⟩, ⟨some ⟨3⟩, .slotsFull 1⟩,
                ⟨some ⟨1⟩, .missing (.channel ⟨77⟩)⟩] }) ∧
      ∀ entry ∈ [lobby, twin, third],
        ((session.step .none (.importBatch [stray, lobby, twin, third])).2.step .none
            (.importBatch [entry])).1 =
          .ok (.report { imported := [entry.id], rejected := [] }) := by
  intro session stray lobby twin third
  refine ⟨answer_importBatch (by decide +kernel), fun entry hentry => answer_importBatch ?_⟩
  revert entry
  decide +kernel

end Session

end ChannelServer
