import ChannelServer.Proofs.Import.Attach

/-!
# Which entries of a batch survive

The outcome of an import can be said without its steps.  An entry is accepted or not by what comes
before it.  An accepted entry survives if it names no parent, or if its parent can have subchannels
and is not itself an entry that names a parent.

The steps come to the same result.  They first go through the entries whose parent does not wait to
be attached: here a link fits exactly if the entry survives, and nothing is below an entry that
goes.  Then they go through the entries whose parent waits.  None of these survives, but on the way
one may be attached to another that is still to come.  `Settling` says that this is all that can
happen: what is not a survivor is still to come or hangs on something that is.  With nothing to come
only the survivors are left.

## Main results

* `settle_first`, `settle_second`: the two halves of the walk.
* `settled`: after the walk the draft holds the survivors and their links.
-/

namespace ChannelServer

open Registry (Pending Fitting)

namespace Registry

/-! ## The outcome -/

/-- The entry is taken over as a top channel after others were. -/
def accepts (base : Registry) (earlier : List Wire.Entry) (entry : Wire.Entry) : Bool :=
  entry.info.check.isOk && entry.id ≠ .reserved &&
    !base.channels.contains entry.id && earlier.all (·.id ≠ entry.id) &&
    (!entry.info.flags.has .default ||
      !base.defaultChannel.isOk && earlier.all (!·.info.flags.has .default)) &&
    base.channels.size + earlier.length < base.limits.channels

/-- The accepted entries after one more entry of the batch. -/
def accept (base : Registry) (earlier : List Wire.Entry) (entry : Wire.Entry) : List Wire.Entry :=
  if base.accepts earlier entry then earlier ++ [entry] else earlier

/-- The entries that are taken over as top channels, in the order of the batch. -/
def accepted (base : Registry) (entries : List Wire.Entry) : List Wire.Entry :=
  entries.foldl base.accept []

/-- The channel can have subchannels after an import: its effective flags say so, and it is not an
accepted entry that names a parent. -/
def bears (base : Registry) (taken : List Wire.Entry) (parent : ChannelId) : Bool :=
  match base.effectiveFlags parent with
  | .ok flags => flags.has .subchannels
  | .error _ => taken.any fun entry =>
      entry.id = parent && entry.parent.isNone && entry.info.flags.has .subchannels

/-- The accepted entry is still there after the import. -/
def survives (base : Registry) (taken : List Wire.Entry) (entry : Wire.Entry) : Bool :=
  match entry.parent with
  | none => true
  | some parent => !entry.info.flags.has .default && base.bears taken parent

/-- The entries that an import leaves, in the order of the batch. -/
def survivors (base : Registry) (entries : List Wire.Entry) : List Wire.Entry :=
  (base.accepted entries).filter (base.survives (base.accepted entries))

/-- The ids of the entries that name a parent, in the order of the batch. -/
def below (entries : List Wire.Entry) (parent : ChannelId) : List ChannelId :=
  (entries.filter (·.parent = some parent)).map (·.id)

/-- The registry after an import: the channels from before, then the survivors.  Each survivor is
below the parent that it names. -/
def imported (entries : List Wire.Entry) (base : Registry) : Registry :=
  let survivors := base.survivors entries
  { base with
    channels :=
      { base.channels with
        entries :=
          base.channels.entries.map (fun channel =>
            { channel with subchannels := channel.subchannels ++ below survivors channel.id }) ++
          survivors.map fun entry =>
            { id := entry.id
              info := entry.info
              parent := entry.parent
              subchannels := below survivors entry.id } } }

/-! ## Links of entries -/

/-- The link from an entry to the parent that it names. -/
def link? (entry : Wire.Entry) : Option Pending := entry.parent.map fun parent => ⟨entry.id, parent⟩

/-- The links that entries ask for. -/
def links (entries : List Wire.Entry) : List Pending := entries.filterMap link?

theorem mem_links {entries : List Wire.Entry} {link : Pending} :
    link ∈ links entries ↔
      ∃ entry ∈ entries, entry.id = link.child ∧ entry.parent = some link.parent := by
  simp only [links, List.mem_filterMap, link?, Option.map_eq_some_iff]
  constructor
  · rintro ⟨entry, hentry, parent, hparent, rfl⟩
    exact ⟨entry, hentry, rfl, hparent⟩
  · rintro ⟨entry, hentry, hid, hparent⟩
    exact ⟨entry, hentry, link.parent, hparent, by rw [hid]⟩

theorem links_append (entries entries' : List Wire.Entry) :
    links (entries ++ entries') = links entries ++ links entries' :=
  List.filterMap_append

theorem filter_links (entries : List Wire.Entry) (p : ChannelId → Bool) :
    (links entries).filter (fun link => p link.parent) =
      links (entries.filter fun entry => entry.parent.any p) := by
  rw [links, links, List.filter_filterMap, List.filterMap_filter]
  apply List.filterMap_congr
  intro entry _
  cases hparent : entry.parent with
  | none => simp [link?, hparent]
  | some parent => cases h : p parent <;> simp [link?, hparent, h]

theorem map_child_links (entries : List Wire.Entry) :
    (links entries).map (·.child) = (entries.filter (·.parent.isSome)).map (·.id) := by
  rw [links, List.map_filterMap, ← List.filterMap_eq_map, List.filterMap_filter]
  apply List.filterMap_congr
  intro entry _
  cases hparent : entry.parent <;> simp [link?, hparent]

theorem nodup_links {entries : List Wire.Entry} (h : (entries.map (·.id)).Nodup) :
    ((links entries).map (·.child)).Nodup := by
  rw [map_child_links]
  exact (List.filter_sublist.map _).nodup h

/-! ## Survivors -/

section Survivors

variable {base : Registry} {taken : List Wire.Entry}

/-- The registry from before knows nothing of the entries. -/
theorem effectiveFlags_of_entry (h : Fitting base ⟨taken, []⟩) {entry : Wire.Entry}
    (hentry : entry ∈ taken) :
    base.effectiveFlags entry.id = .error (.missing (.channel entry.id)) := by
  have hnew : base.channels.get? entry.id = none := by
    cases hc : base.channels.get? entry.id with
    | none => rfl
    | some c => exact absurd (List.mem_map_of_mem hentry) (h.old_of_base hc)
  simp [effectiveFlags, channel_eq_error hnew, bind, Except.bind]

/-- What waits for a parent itself cannot be a parent. -/
theorem not_bears_of_pending (h : Fitting base ⟨taken, []⟩) {parent : ChannelId}
    (hpending : parent ∈ (links taken).map (·.child)) : base.bears taken parent = false := by
  obtain ⟨link, hlink, rfl⟩ := List.mem_map.mp hpending
  obtain ⟨entry, hentry, hid, hparent⟩ := mem_links.mp hlink
  have herror := effectiveFlags_of_entry h hentry
  rw [hid] at herror
  simp only [bears, herror]
  rw [Bool.eq_false_iff, ne_eq, List.any_eq_true]
  rintro ⟨other, hother, hbears⟩
  simp only [Bool.and_eq_true, decide_eq_true_eq, Option.isNone_iff_eq_none] at hbears
  obtain ⟨⟨hsame, hnone⟩, -⟩ := hbears
  cases List.inj_on_of_nodup_map h.nodup_entries hother hentry (hsame.trans hid.symm)
  rw [hparent] at hnone
  cases hnone

theorem survives_of_top {entry : Wire.Entry} (h : entry.parent = none) :
    base.survives taken entry = true := by
  simp only [survives, h]

theorem survives_of_below {entry : Wire.Entry} {parent : ChannelId}
    (h : entry.parent = some parent) : base.survives taken entry =
      (!entry.info.flags.has .default && base.bears taken parent) := by
  simp only [survives, h]

/-- The parent of a survivor does not wait for a parent itself. -/
theorem not_pending_of_survives (h : Fitting base ⟨taken, []⟩) {entry : Wire.Entry}
    {parent : ChannelId} (hparent : entry.parent = some parent)
    (hsurvives : base.survives taken entry = true) :
    parent ∉ (links taken).map (·.child) := by
  intro hpending
  rw [survives_of_below hparent, not_bears_of_pending h hpending, Bool.and_false] at hsurvives
  cases hsurvives

/-- The link of an entry is one of the links that the batch asks for. -/
theorem mem_children_links {entry : Wire.Entry} (hentry : entry ∈ taken) {parent : ChannelId}
    (hparent : entry.parent = some parent) : entry.id ∈ (links taken).map (·.child) :=
  List.mem_map.mpr ⟨⟨entry.id, parent⟩, mem_links.mpr ⟨entry, hentry, rfl, hparent⟩, rfl⟩

theorem parent_eq_none_of_settled {entry : Wire.Entry} (hentry : entry ∈ taken)
    (hsettled : entry.id ∉ (links taken).map (·.child)) : entry.parent = none := by
  cases hparent : entry.parent with
  | none => rfl
  | some parent => exact absurd (mem_children_links hentry hparent) hsettled

/-! ### The first half -/

/-- The state of the first half of the walk, with the entries that are still to come. -/
structure Opening (taken todo : List Wire.Entry) (draft : Draft) : Prop where
  nodup : todo.Nodup
  /-- Only entries come whose parent does not wait for a parent itself. -/
  parents : ∀ entry ∈ todo, ∃ parent, entry.parent = some parent ∧
    parent ∉ (links taken).map (·.child)
  here : ∀ entry ∈ todo, entry ∈ draft.entries
  known : ∀ entry ∈ draft.entries, entry ∈ taken
  tops : ∀ entry ∈ taken, entry.parent = none → entry ∈ draft.entries
  children : ∀ link ∈ draft.links, link.child ∈ (links taken).map (·.child)
  settled : ∀ link ∈ draft.links, link.parent ∉ (links taken).map (·.child)
  unlinked : ∀ entry ∈ todo, ∀ link ∈ draft.links, link.child ≠ entry.id

section Opening

variable {entry : Wire.Entry} {todo : List Wire.Entry} {draft : Draft} {parent : ChannelId}

/-- In the first half a channel can have subchannels in the draft exactly if it can have them after
the import. -/
theorem Opening.bears_eq (ho : Opening taken todo draft)
    (hsettled : parent ∉ (links taken).map (·.child)) :
    draft.bears base parent = base.bears taken parent := by
  have hunlinked : parent ∉ draft.links.map (·.child) := by
    intro hmem
    obtain ⟨link, hlink, rfl⟩ := List.mem_map.mp hmem
    exact hsettled (ho.children link hlink)
  unfold Draft.bears bears
  cases base.effectiveFlags parent with
  | ok flags => rfl
  | error fault =>
      simp only [hunlinked, not_false_eq_true, decide_true, Bool.and_true]
      rw [Bool.eq_iff_iff, List.any_eq_true, List.any_eq_true]
      simp only [Bool.and_eq_true, decide_eq_true_eq, Option.isNone_iff_eq_none]
      constructor
      · rintro ⟨entry, hentry, hid, hflag⟩
        have haccepted := ho.known entry hentry
        have htop := parent_eq_none_of_settled haccepted (hid ▸ hsettled)
        exact ⟨entry, haccepted, ⟨hid, htop⟩, hflag⟩
      · rintro ⟨entry, hentry, ⟨hid, hnone⟩, hflag⟩
        exact ⟨entry, ho.tops entry hentry hnone, hid, hflag⟩

/-- In the first half a link fits exactly if its entry survives. -/
theorem Opening.fits_eq (h : Fitting base ⟨taken, []⟩)
    (ho : Opening taken (entry :: todo) draft) (hparent : entry.parent = some parent) :
    draft.fits base ⟨entry.id, parent⟩ = base.survives taken entry := by
  have hhere := ho.here entry List.mem_cons_self
  have hpending := mem_children_links (ho.known entry hhere) hparent
  obtain ⟨parent', hparent', hsettled⟩ := ho.parents entry List.mem_cons_self
  cases hparent.symm.trans hparent'
  rw [survives_of_below hparent, Bool.eq_iff_iff, fits_iff, Bool.and_eq_true,
    ho.bears_eq hsettled, Bool.not_eq_true']
  constructor
  · rintro ⟨hbears, -, -, hdefault⟩
    exact ⟨hdefault entry hhere rfl, hbears⟩
  · rintro ⟨hdefault, hbears⟩
    refine ⟨hbears, fun (heq : parent = entry.id) => hsettled (heq ▸ hpending), ?_, ?_⟩
    · exact fun link hlink heq => ho.settled link hlink (heq ▸ hpending)
    · intro other hother hid
      rw [List.inj_on_of_nodup_map h.nodup_entries (ho.known other hother)
        (ho.known entry hhere) hid]
      exact hdefault

/-- In the first half a step keeps the entry with its link, or it takes the entry out and nothing
else. -/
theorem Opening.next_eq (h : Fitting base ⟨taken, []⟩)
    (ho : Opening taken (entry :: todo) draft) (hparent : entry.parent = some parent) :
    draft.next base ⟨entry.id, parent⟩ =
      { entries := draft.entries.filter fun other =>
          other ≠ entry ∨ base.survives taken other = true
        links := draft.links ++ links ([entry].filter (base.survives taken)) } := by
  have hhere := ho.known entry (ho.here entry List.mem_cons_self)
  have hpending := mem_children_links hhere hparent
  rw [Draft.next, ho.fits_eq h hparent]
  cases hsurvives : base.survives taken entry with
  | true =>
      have hentries : draft.entries.filter (fun other =>
          other ≠ entry ∨ base.survives taken other = true) = draft.entries := by
        refine List.filter_eq_self.mpr fun other _ => decide_eq_true ?_
        by_cases heq : other = entry
        · exact .inr (heq ▸ hsurvives)
        · exact .inl heq
      rw [if_pos rfl, hentries, List.filter_cons_of_pos hsurvives]
      simp only [Draft.link, links, link?, hparent, List.filter_nil, List.filterMap_cons,
        Option.map_some, List.filterMap_nil]
  | false =>
      have hleaf : childrenOf draft.links entry.id = [] := by
        apply List.eq_nil_iff_forall_not_mem.mpr
        intro child hchild
        exact ho.settled _ (mem_childrenOf.mp hchild) hpending
      have hentries : draft.entries.filter (fun other => other.id ∉ [entry.id]) =
          draft.entries.filter fun other =>
            other ≠ entry ∨ base.survives taken other = true := by
        refine List.filter_congr fun other hother => decide_eq_decide.mpr ?_
        rw [List.mem_singleton]
        constructor
        · exact fun hne => .inl fun heq => hne (heq ▸ rfl)
        · rintro (hne | hkept) hid
          · exact hne (List.inj_on_of_nodup_map h.nodup_entries (ho.known other hother) hhere hid)
          · rw [List.inj_on_of_nodup_map h.nodup_entries (ho.known other hother) hhere hid,
              hsurvives] at hkept
            cases hkept
      have hlinks : draft.links.filter (fun link =>
          link.child ∉ [entry.id] ∧ link.parent ∉ [entry.id]) = draft.links := by
        refine List.filter_eq_self.mpr fun link hlink => decide_eq_true ⟨?_, ?_⟩
        · rw [List.mem_singleton]
          exact ho.unlinked entry List.mem_cons_self link hlink
        · rw [List.mem_singleton]
          exact fun heq => ho.settled link hlink (heq ▸ hpending)
      have hnone : [entry].filter (base.survives taken) = [] :=
        List.filter_cons_of_neg (by rw [hsurvives]; exact Bool.false_ne_true)
      rw [if_neg Bool.false_ne_true, Draft.drop, hleaf, hentries, hlinks, hnone]
      simp only [links, List.filterMap_nil, List.append_nil]

theorem Opening.next (h : Fitting base ⟨taken, []⟩)
    (ho : Opening taken (entry :: todo) draft) (hparent : entry.parent = some parent) :
    Opening taken todo (draft.next base ⟨entry.id, parent⟩) := by
  have hhere := ho.known entry (ho.here entry List.mem_cons_self)
  have hne {other : Wire.Entry} (hother : other ∈ todo) : other ≠ entry := fun heq =>
    (List.nodup_cons.mp ho.nodup).1 (heq ▸ hother)
  have hnew {link : Pending} (hlink : link ∈ links ([entry].filter (base.survives taken))) :
      link.child = entry.id ∧ link.parent = parent := by
    obtain ⟨other, hother, hid, hupper⟩ := mem_links.mp hlink
    have hsame := List.mem_singleton.mp (List.mem_of_mem_filter hother)
    rw [hsame] at hid hupper
    exact ⟨hid.symm, Option.some.inj (hupper.symm.trans hparent)⟩
  rw [ho.next_eq h hparent]
  constructor
  · exact (List.nodup_cons.mp ho.nodup).2
  · exact fun other hother => ho.parents other (List.mem_cons_of_mem _ hother)
  · intro other hother
    exact List.mem_filter.mpr
      ⟨ho.here other (List.mem_cons_of_mem _ hother), decide_eq_true (.inl (hne hother))⟩
  · exact fun other hother => ho.known other (List.mem_of_mem_filter hother)
  · intro other hother hnone
    refine List.mem_filter.mpr ⟨ho.tops other hother hnone, decide_eq_true (.inl fun heq => ?_)⟩
    rw [heq, hparent] at hnone
    cases hnone
  · intro link hlink
    rcases List.mem_append.mp hlink with hold | hlast
    · exact ho.children link hold
    · rw [(hnew hlast).1]
      exact mem_children_links hhere hparent
  · intro link hlink
    rcases List.mem_append.mp hlink with hold | hlast
    · exact ho.settled link hold
    · obtain ⟨upper, hupper, hsettled⟩ := ho.parents entry List.mem_cons_self
      rw [(hnew hlast).2, ← Option.some.inj (hupper.symm.trans hparent)]
      exact hsettled
  · intro other hother link hlink
    rcases List.mem_append.mp hlink with hold | hlast
    · exact ho.unlinked other (List.mem_cons_of_mem _ hother) link hold
    · rw [(hnew hlast).1]
      exact fun hid => hne hother (List.inj_on_of_nodup_map h.nodup_entries
        (ho.known other (ho.here other (List.mem_cons_of_mem _ hother))) hhere hid.symm)

/-- Entries whose parent does not wait: those that survive get their link, the others go. -/
theorem settle_first (h : Fitting base ⟨taken, []⟩) (ho : Opening taken todo draft) :
    (links todo).foldl (Draft.next base) draft =
      { entries := draft.entries.filter fun other =>
          other ∉ todo ∨ base.survives taken other = true
        links := draft.links ++ links (todo.filter (base.survives taken)) } := by
  induction todo generalizing draft with
  | nil => simp [links]
  | cons entry todo ih =>
      obtain ⟨parent, hparent, -⟩ := ho.parents entry List.mem_cons_self
      have hlinks : links (entry :: todo) = ⟨entry.id, parent⟩ :: links todo := by
        rw [links, List.filterMap_cons_some (by rw [link?, hparent, Option.map_some]), links]
      have hfilter : (entry :: todo).filter (base.survives taken) =
          [entry].filter (base.survives taken) ++ todo.filter (base.survives taken) :=
        List.filter_append [entry] todo
      rw [hlinks, List.foldl_cons, ih (ho.next h hparent), ho.next_eq h hparent, hfilter,
        links_append, List.append_assoc]
      simp only [List.filter_filter, Draft.mk.injEq, and_true]
      apply List.filter_congr
      intro other _
      rw [← Bool.decide_and, decide_eq_decide, List.mem_cons]
      tauto

end Opening

/-! ### The second half -/

/-- The state of the second half of the walk, with the entries that are still to come. -/
structure Settling (base : Registry) (taken todo : List Wire.Entry) (draft : Draft) : Prop where
  nodup : todo.Nodup
  /-- Only entries come whose parent waits for a parent itself. -/
  parents : ∀ entry ∈ todo, ∃ parent, entry.parent = some parent ∧
    parent ∈ (links taken).map (·.child)
  here : ∀ entry ∈ todo, entry ∈ draft.entries
  kept : ∃ kept, draft.entries = taken.filter kept
  survivors : ∀ entry ∈ taken, base.survives taken entry = true → entry ∈ draft.entries
  /-- What does not survive is still to come or is below an entry that is. -/
  waiting : ∀ entry ∈ draft.entries, base.survives taken entry = true ∨ entry ∈ todo ∨
    ∃ upper ∈ todo, ⟨entry.id, upper.id⟩ ∈ draft.links
  /-- The links of the survivors are there, in the order of the batch. -/
  settled : draft.links.filter (·.parent ∉ (links taken).map (·.child)) =
    links (taken.filter (base.survives taken))
  /-- The other links go to entries that are still to come. -/
  hanging : ∀ link ∈ draft.links, link.parent ∈ (links taken).map (·.child) →
    ∃ upper ∈ todo, upper.id = link.parent
  unlinked : ∀ entry ∈ todo, ∀ link ∈ draft.links, link.child ≠ entry.id
  asked : ∀ link ∈ draft.links, link ∈ links taken

section Settling

variable {entry : Wire.Entry} {todo : List Wire.Entry} {draft : Draft} {parent : ChannelId}

theorem Settling.known (hs : Settling base taken todo draft) {entry : Wire.Entry}
    (hentry : entry ∈ draft.entries) : entry ∈ taken := by
  obtain ⟨kept, hkept⟩ := hs.kept
  rw [hkept] at hentry
  exact List.mem_of_mem_filter hentry

/-- The parent of a link that fits is an entry that is still to come. -/
theorem Settling.upper_of_bears (h : Fitting base ⟨taken, []⟩)
    (hs : Settling base taken todo draft)
    (hpending : parent ∈ (links taken).map (·.child))
    (hbears : draft.bears base parent = true) : ∃ upper ∈ todo, upper.id = parent := by
  obtain ⟨link, hlink, rfl⟩ := List.mem_map.mp hpending
  obtain ⟨entry, hentry, hid, -⟩ := mem_links.mp hlink
  have herror := effectiveFlags_of_entry h hentry
  rw [hid] at herror
  simp only [Draft.bears, herror, List.any_eq_true, Bool.and_eq_true, decide_eq_true_eq] at hbears
  obtain ⟨upper, hupper, ⟨hsame, hfree⟩, -⟩ := hbears
  have haccepted := hs.known hupper
  rcases hs.waiting upper hupper with hsurvives | htodo | ⟨above, -, hlinked⟩
  · -- A survivor that names a parent has its link already.
    rw [← hsame] at hpending hfree
    obtain ⟨link', hlink', hid'⟩ := List.mem_map.mp hpending
    obtain ⟨other, hother, hid'', hparent⟩ := mem_links.mp hlink'
    have heq := List.inj_on_of_nodup_map h.nodup_entries hother haccepted (hid''.trans hid')
    rw [← heq] at hsurvives
    have hmem : link' ∈ links (taken.filter (base.survives taken)) :=
      mem_links.mpr ⟨other, List.mem_filter.mpr ⟨hother, hsurvives⟩, hid'', hparent⟩
    rw [← hs.settled] at hmem
    exact absurd (List.mem_map.mpr ⟨link', List.mem_of_mem_filter hmem, hid'⟩) hfree
  · exact ⟨upper, htodo, hsame⟩
  · exact absurd (List.mem_map.mpr ⟨_, hlinked, hsame⟩) hfree

/-- If the link fits, its parent is still to come. -/
theorem Settling.link (h : Fitting base ⟨taken, []⟩)
    (hs : Settling base taken (entry :: todo) draft) (hparent : entry.parent = some parent)
    (hfits : draft.fits base ⟨entry.id, parent⟩ = true) :
    Settling base taken todo (draft.link ⟨entry.id, parent⟩) := by
  have hhere := hs.known (hs.here entry List.mem_cons_self)
  obtain ⟨parent', hparent', hpending⟩ := hs.parents entry List.mem_cons_self
  cases hparent.symm.trans hparent'
  obtain ⟨hbears, hne, hchildless, -⟩ := fits_iff.mp hfits
  obtain ⟨upper, hupper, hid⟩ := hs.upper_of_bears h hpending hbears
  have hupper : upper ∈ todo := by
    rcases List.mem_cons.mp hupper with rfl | hupper
    · exact absurd hid.symm hne
    · exact hupper
  -- Nothing hangs on the entry, so what hangs on something hangs on what comes after it.
  have hlater {link : Pending} (hlink : link ∈ draft.links) {other : Wire.Entry}
      (hother : other ∈ entry :: todo) (hid : other.id = link.parent) : other ∈ todo := by
    rcases List.mem_cons.mp hother with rfl | hother
    · exact absurd hid.symm (hchildless link hlink)
    · exact hother
  constructor
  · exact (List.nodup_cons.mp hs.nodup).2
  · exact fun other hother => hs.parents other (List.mem_cons_of_mem _ hother)
  · exact fun other hother => hs.here other (List.mem_cons_of_mem _ hother)
  · exact hs.kept
  · exact hs.survivors
  · intro other hother
    rcases hs.waiting other hother with hsurvives | htodo | ⟨above, habove, hlinked⟩
    · exact .inl hsurvives
    · rcases List.mem_cons.mp htodo with heq | htodo
      · refine .inr (.inr ⟨upper, hupper, List.mem_append_right _ ?_⟩)
        rw [hid, heq]
        exact List.mem_singleton_self _
      · exact .inr (.inl htodo)
    · exact .inr (.inr ⟨above, hlater hlinked habove rfl, List.mem_append_left _ hlinked⟩)
  · have hnone : [(⟨entry.id, parent⟩ : Pending)].filter
        (fun link => link.parent ∉ (links taken).map (·.child)) = [] :=
      List.filter_cons_of_neg (by simpa using hpending)
    rw [Draft.link, List.filter_append, hnone, List.append_nil]
    exact hs.settled
  · intro link hlink hlinkPending
    rcases List.mem_append.mp hlink with hold | hnew
    · obtain ⟨other, hother, hotherId⟩ := hs.hanging link hold hlinkPending
      exact ⟨other, hlater hold hother hotherId, hotherId⟩
    · rw [List.mem_singleton.mp hnew]
      exact ⟨upper, hupper, hid⟩
  · intro other hother link hlink
    rcases List.mem_append.mp hlink with hold | hnew
    · exact hs.unlinked other (List.mem_cons_of_mem _ hother) link hold
    · rw [List.mem_singleton.mp hnew]
      intro heq
      cases List.inj_on_of_nodup_map h.nodup_entries hhere
        (hs.known (hs.here other (List.mem_cons_of_mem _ hother))) heq
      exact (List.nodup_cons.mp hs.nodup).1 hother
  · intro link hlink
    rcases List.mem_append.mp hlink with hold | hnew
    · exact hs.asked link hold
    · rw [List.mem_singleton.mp hnew]
      exact mem_links.mpr ⟨entry, hhere, rfl, hparent⟩

/-- What hangs on an entry names it as the parent. -/
theorem Settling.parent_of_hanging (h : Fitting base ⟨taken, []⟩)
    (hs : Settling base taken todo draft) {id : ChannelId} {other : Wire.Entry}
    (hother : other ∈ taken) (hbelow : other.id ∈ childrenOf draft.links id) :
    other.parent = some id := by
  obtain ⟨named, hnamed, hid, hupper⟩ := mem_links.mp (hs.asked _ (mem_childrenOf.mp hbelow))
  cases List.inj_on_of_nodup_map h.nodup_entries hnamed hother hid
  exact hupper

/-- Neither the next entry nor what hangs on it survives. -/
theorem Settling.not_survives (h : Fitting base ⟨taken, []⟩)
    (hs : Settling base taken (entry :: todo) draft) {other : Wire.Entry}
    (hother : other ∈ taken)
    (hmem : other.id ∈ entry.id :: childrenOf draft.links entry.id) :
    base.survives taken other = false := by
  have hhere := hs.known (hs.here entry List.mem_cons_self)
  obtain ⟨parent, hparent, hpending⟩ := hs.parents entry List.mem_cons_self
  rw [Bool.eq_false_iff]
  intro hsurvives
  rcases List.mem_cons.mp hmem with hid | hbelow
  · cases List.inj_on_of_nodup_map h.nodup_entries hother hhere hid
    exact not_pending_of_survives h hparent hsurvives hpending
  · exact not_pending_of_survives h (hs.parent_of_hanging h hother hbelow) hsurvives
      (mem_children_links hhere hparent)

/-- What is still to come does not hang on the next entry. -/
theorem Settling.stays (h : Fitting base ⟨taken, []⟩)
    (hs : Settling base taken (entry :: todo) draft) {other : Wire.Entry} (hother : other ∈ todo) :
    other.id ∉ entry.id :: childrenOf draft.links entry.id := by
  rw [List.mem_cons]
  rintro (hid | hbelow)
  · cases List.inj_on_of_nodup_map h.nodup_entries
      (hs.known (hs.here other (List.mem_cons_of_mem _ hother)))
      (hs.known (hs.here entry List.mem_cons_self)) hid
    exact (List.nodup_cons.mp hs.nodup).1 hother
  · exact hs.unlinked other (List.mem_cons_of_mem _ hother) _ (mem_childrenOf.mp hbelow) rfl

/-- No link of a survivor goes with the next entry. -/
theorem Settling.settled_drop (h : Fitting base ⟨taken, []⟩)
    (hs : Settling base taken (entry :: todo) draft) :
    (draft.drop entry.id).links.filter (·.parent ∉ (links taken).map (·.child)) =
      links (taken.filter (base.survives taken)) := by
  obtain ⟨parent, hparent, -⟩ := hs.parents entry List.mem_cons_self
  have hself := mem_children_links (hs.known (hs.here entry List.mem_cons_self)) hparent
  rw [← hs.settled, Draft.drop, List.filter_filter]
  apply List.filter_congr
  intro link hlink
  by_cases hsettled : link.parent ∈ (links taken).map (·.child)
  · simp [hsettled]
  · obtain ⟨other, hother, hid, hupper⟩ := mem_links.mp (hs.asked link hlink)
    have hchild : link.child ∉ entry.id :: childrenOf draft.links entry.id := by
      rw [List.mem_cons]
      rintro (heq | hbelow)
      · exact hs.unlinked entry List.mem_cons_self link hlink heq
      · have hsame := hs.parent_of_hanging h hother (hid ▸ hbelow)
        rw [hupper, Option.some.injEq] at hsame
        exact hsettled (hsame ▸ hself)
    have hfree : link.parent ∉ entry.id :: childrenOf draft.links entry.id := by
      rw [List.mem_cons]
      rintro (heq | hbelow)
      · exact hsettled (heq ▸ hself)
      · obtain ⟨named, hnamed, hid', hupper'⟩ :=
          mem_links.mp (hs.asked _ (mem_childrenOf.mp hbelow))
        have hid' : named.id = link.parent := hid'
        exact hsettled (hid' ▸ mem_children_links hnamed hupper')
    simp [hsettled, hchild, hfree]

/-- If the link does not fit, the entry goes, and with it what hangs on it. -/
theorem Settling.drop (h : Fitting base ⟨taken, []⟩)
    (hs : Settling base taken (entry :: todo) draft) :
    Settling base taken todo (draft.drop entry.id) := by
  constructor
  · exact (List.nodup_cons.mp hs.nodup).2
  · exact fun other hother => hs.parents other (List.mem_cons_of_mem _ hother)
  · intro other hother
    exact List.mem_filter.mpr
      ⟨hs.here other (List.mem_cons_of_mem _ hother), decide_eq_true (hs.stays h hother)⟩
  · obtain ⟨kept, hkept⟩ := hs.kept
    exact ⟨_, by rw [Draft.drop, hkept, List.filter_filter]⟩
  · intro other hother hsurvives
    refine List.mem_filter.mpr ⟨hs.survivors other hother hsurvives, decide_eq_true fun hmem => ?_⟩
    rw [hs.not_survives h hother hmem] at hsurvives
    cases hsurvives
  · intro other hother
    obtain ⟨hmem, hkept⟩ := List.mem_filter.mp hother
    have hkept := of_decide_eq_true hkept
    rcases hs.waiting other hmem with hsurvives | htodo | ⟨above, habove, hlinked⟩
    · exact .inl hsurvives
    · rcases List.mem_cons.mp htodo with rfl | htodo
      · exact absurd List.mem_cons_self hkept
      · exact .inr (.inl htodo)
    · rcases List.mem_cons.mp habove with rfl | habove
      · exact absurd (List.mem_cons_of_mem _ (mem_childrenOf.mpr hlinked)) hkept
      · exact .inr (.inr ⟨above, habove,
          List.mem_filter.mpr ⟨hlinked, decide_eq_true ⟨hkept, hs.stays h habove⟩⟩⟩)
  · exact hs.settled_drop h
  · intro link hlink hlinkPending
    obtain ⟨hmem, hkept⟩ := List.mem_filter.mp hlink
    obtain ⟨other, hother, hid⟩ := hs.hanging link hmem hlinkPending
    rcases List.mem_cons.mp hother with rfl | hother
    · exact absurd (hid ▸ List.mem_cons_self) (of_decide_eq_true hkept).2
    · exact ⟨other, hother, hid⟩
  · exact fun other hother link hlink =>
      hs.unlinked other (List.mem_cons_of_mem _ hother) link (List.mem_of_mem_filter hlink)
  · exact fun link hlink => hs.asked link (List.mem_of_mem_filter hlink)

theorem Settling.next (h : Fitting base ⟨taken, []⟩)
    (hs : Settling base taken (entry :: todo) draft) (hparent : entry.parent = some parent) :
    Settling base taken todo (draft.next base ⟨entry.id, parent⟩) := by
  unfold Draft.next
  split
  · exact hs.link h hparent ‹_›
  · exact hs.drop h

/-- Entries whose parent waits: in the end all of them are gone. -/
theorem settle_second (h : Fitting base ⟨taken, []⟩)
    (hs : Settling base taken todo draft) :
    Settling base taken [] ((links todo).foldl (Draft.next base) draft) := by
  induction todo generalizing draft with
  | nil => exact hs
  | cons entry todo ih =>
      obtain ⟨parent, hparent, -⟩ := hs.parents entry List.mem_cons_self
      have hlinks : links (entry :: todo) = ⟨entry.id, parent⟩ :: links todo := by
        rw [links, List.filterMap_cons_some (by rw [link?, hparent, Option.map_some]), links]
      rw [hlinks, List.foldl_cons]
      exact ih (hs.next h hparent)

/-- With nothing to come, the survivors and their links are left. -/
theorem Settling.eq (hs : Settling base taken [] draft) :
    draft = { entries := taken.filter (base.survives taken)
              links := links (taken.filter (base.survives taken)) } := by
  have hentries : draft.entries = taken.filter (base.survives taken) := by
    obtain ⟨kept, hkept⟩ := hs.kept
    rw [hkept]
    apply List.filter_congr
    intro entry hentry
    rw [Bool.eq_iff_iff]
    have hmem : entry ∈ draft.entries ↔ kept entry = true := by
      rw [hkept, List.mem_filter, and_iff_right hentry]
    rw [← hmem]
    constructor
    · intro hthere
      rcases hs.waiting entry hthere with hsurvives | htodo | ⟨above, habove, -⟩
      · exact hsurvives
      · cases htodo
      · cases habove
    · exact hs.survivors entry hentry
  have hlinks : draft.links = links (taken.filter (base.survives taken)) := by
    rw [← hs.settled, eq_comm, List.filter_eq_self]
    intro link hlink
    rw [decide_eq_true_eq]
    intro hpending
    obtain ⟨above, habove, -⟩ := hs.hanging link hlink hpending
    cases habove
  rw [← hlinks, ← hentries]

end Settling

/-! ### The whole walk -/

/-- The entries whose parent does not wait for a parent itself. -/
def early (taken : List Wire.Entry) : List Wire.Entry :=
  taken.filter (·.parent.any (· ∉ (links taken).map (·.child)))

/-- The entries whose parent waits for a parent itself. -/
def late (taken : List Wire.Entry) : List Wire.Entry :=
  taken.filter (·.parent.any (· ∈ (links taken).map (·.child)))

theorem mem_early {entry : Wire.Entry} : entry ∈ early taken ↔
    entry ∈ taken ∧ ∃ parent, entry.parent = some parent ∧
      parent ∉ (links taken).map (·.child) := by
  simp only [early, List.mem_filter, Option.any_eq_true, decide_eq_true_eq]

theorem mem_late {entry : Wire.Entry} : entry ∈ late taken ↔
    entry ∈ taken ∧ ∃ parent, entry.parent = some parent ∧
      parent ∈ (links taken).map (·.child) := by
  simp only [late, List.mem_filter, Option.any_eq_true, decide_eq_true_eq]

theorem attachOrder_links (taken : List Wire.Entry) :
    attachOrder (links taken) = links (early taken) ++ links (late taken) := by
  rw [early, late, ← filter_links, ← filter_links]
  rfl

/-- The survivors among the entries whose parent does not wait have all the links. -/
theorem links_survivors (h : Fitting base ⟨taken, []⟩) :
    links ((early taken).filter (base.survives taken)) =
      links (taken.filter (base.survives taken)) := by
  rw [links, links, early, List.filter_filter, List.filterMap_filter, List.filterMap_filter]
  apply List.filterMap_congr
  intro entry hentry
  cases hparent : entry.parent with
  | none => simp [link?, hparent]
  | some parent =>
      cases hsurvives : base.survives taken entry with
      | false => simp
      | true =>
          have hsettled := not_pending_of_survives h hparent hsurvives
          rw [Option.any_some, decide_eq_true hsettled, Bool.and_true]

theorem opening_early (h : Fitting base ⟨taken, []⟩) : Opening taken (early taken) ⟨taken, []⟩ where
  nodup := h.nodup_entries.of_map.filter _
  parents _ hentry := (mem_early.mp hentry).2
  here _ hentry := (mem_early.mp hentry).1
  known _ hentry := hentry
  tops _ hentry _ := hentry
  children _ hlink := absurd hlink List.not_mem_nil
  settled _ hlink := absurd hlink List.not_mem_nil
  unlinked _ _ _ hlink := absurd hlink List.not_mem_nil

/-- The link of a survivor is one of the links that the batch asks for, and its parent does not
wait. -/
theorem link_of_survivor (h : Fitting base ⟨taken, []⟩) {link : Pending}
    (hlink : link ∈ links (taken.filter (base.survives taken))) :
    link ∈ links taken ∧ link.parent ∉ (links taken).map (·.child) := by
  obtain ⟨entry, hentry, hid, hparent⟩ := mem_links.mp hlink
  obtain ⟨hmem, hsurvives⟩ := List.mem_filter.mp hentry
  exact ⟨mem_links.mpr ⟨entry, hmem, hid, hparent⟩, not_pending_of_survives h hparent hsurvives⟩

/-- Between the two halves, the survivors have their links and the other entries whose parent waits
are there. -/
theorem settling_late (h : Fitting base ⟨taken, []⟩) : Settling base taken (late taken)
    { entries := taken.filter fun entry => entry ∉ early taken ∨ base.survives taken entry = true
      links := links (taken.filter (base.survives taken)) } where
  nodup := h.nodup_entries.of_map.filter _
  parents entry hentry := (mem_late.mp hentry).2
  here entry hentry := by
    obtain ⟨hmem, parent, hparent, hpending⟩ := mem_late.mp hentry
    refine List.mem_filter.mpr ⟨hmem, decide_eq_true (.inl fun hearly => ?_)⟩
    obtain ⟨-, parent', hparent', hsettled⟩ := mem_early.mp hearly
    cases hparent.symm.trans hparent'
    exact hsettled hpending
  kept := ⟨_, rfl⟩
  survivors entry hentry hsurvives :=
    List.mem_filter.mpr ⟨hentry, decide_eq_true (.inr hsurvives)⟩
  waiting entry hentry := by
    obtain ⟨hmem, hkept⟩ := List.mem_filter.mp hentry
    rcases of_decide_eq_true hkept with hlater | hsurvives
    · cases hparent : entry.parent with
      | none => exact .inl (survives_of_top hparent)
      | some parent =>
          by_cases hpending : parent ∈ (links taken).map (·.child)
          · exact .inr (.inl (mem_late.mpr ⟨hmem, parent, hparent, hpending⟩))
          · exact absurd (mem_early.mpr ⟨hmem, parent, hparent, hpending⟩) hlater
    · exact .inl hsurvives
  settled := List.filter_eq_self.mpr fun link hlink =>
    decide_eq_true (link_of_survivor h hlink).2
  hanging link hlink hpending := absurd hpending (link_of_survivor h hlink).2
  unlinked entry hentry link hlink hid := by
    obtain ⟨hasked, hsettled⟩ := link_of_survivor h hlink
    obtain ⟨other, hother, hid', hparent⟩ := mem_links.mp hasked
    obtain ⟨hmem, parent, hparent', hpending⟩ := mem_late.mp hentry
    cases List.inj_on_of_nodup_map h.nodup_entries hother hmem (hid'.trans hid)
    rw [hparent, Option.some.injEq] at hparent'
    exact hsettled (hparent' ▸ hpending)
  asked link hlink := (link_of_survivor h hlink).1

/-- After the walk the draft holds the survivors and their links. -/
theorem settled (h : Fitting base ⟨taken, []⟩) :
    (attachOrder (links taken)).foldl (Draft.next base) ⟨taken, []⟩ =
      { entries := taken.filter (base.survives taken)
        links := links (taken.filter (base.survives taken)) } := by
  rw [attachOrder_links, List.foldl_append, settle_first h (opening_early h), List.nil_append,
    links_survivors h]
  exact (settle_second h (settling_late h)).eq

end Survivors

end Registry

end ChannelServer
