import ChannelServer.Config.Build
import ChannelServer.Proofs.Config.Check
import ChannelServer.Proofs.Effect.Channels

/-!
# The registry that settings describe

The settings refer to channels by name, the registry refers to them by id.  The ids are given in
order, so the position of a channel in the settings says all of its ids, and `plan` is the registry
that a list of channels describes.  What one more channel does to it is what setting up has to do:
the new channel comes to the end, and its parent gets one more subchannel.

## Main results

* `plan_concat_top`, `plan_concat_below`: the plan with one more channel.
* `get?_plan`, `get?_plan_eq_none`: what is planned under an id.
* `hasDefault_plan`: there is a default channel exactly if some channel has the name of the flag.
-/

namespace ChannelServer

namespace Registry

variable {registry : Registry} {c : Channel} {id parent : ChannelId}

/-- The registry with a channel at the end. -/
def joined (c : Channel) (registry : Registry) : Registry :=
  { registry with channels := registry.channels.append c }

theorem get?_joined (c : Channel) (registry : Registry) (id : ChannelId) :
    (registry.joined c).channels.get? id =
      (registry.channels.get? id).or (if c.id = id then some c else none) :=
  Slots.get?_append _ _ _

/-- A change of the channel at the end. -/
theorem withChange_joined (hid : c.id = id) (hfree : registry.channels.get? id = none)
    (f : Channel → Channel) : (registry.joined c).withChange id f = registry.joined (f c) := by
  have hmodify : (registry.channels.append c).modify id f = registry.channels.append (f c) :=
    Slots.modify_append_self hid hfree f
  rw [withChange, joined, hmodify]
  rfl

/-- The channel at the end is put below one of those before. -/
theorem link_joined (hid : c.id = id) (hfree : registry.channels.get? id = none)
    (hne : id ≠ parent) : (registry.joined c).link parent id =
      (registry.withChange parent (Channel.adopt id)).joined (c.sink parent) := by
  have hsink : (registry.channels.append c).modify id (Channel.sink parent) =
      registry.channels.append (c.sink parent) :=
    Slots.modify_append_self hid hfree _
  have hadopt : (registry.channels.append (c.sink parent)).modify parent (Channel.adopt id) =
      (registry.channels.modify parent (Channel.adopt id)).append (c.sink parent) :=
    Slots.modify_append_of_ne (fun heq => hne (hid.symm.trans heq)) _ _
  rw [link, joined, hsink, hadopt]
  rfl

end Registry

namespace Config

/-! ## Ids -/

/-- The id of the channel at a position. -/
def idAt (position : Nat) : ChannelId := ⟨UInt32.ofNat (position + 1)⟩

section Ids

variable {position other : Nat}

theorem toNat_idAt (h : position < Registry.maxChannelId) :
    (idAt position).value.toNat = position + 1 := by
  refine UInt32.toNat_ofNat_of_lt' ?_
  simp only [Registry.maxChannelId] at h
  simp only [UInt32.size]
  omega

theorem idAt_inj (h : position < Registry.maxChannelId) (hother : other < Registry.maxChannelId) :
    idAt position = idAt other ↔ position = other := by
  refine ⟨fun heq => ?_, congrArg idAt⟩
  have hnat := congrArg (fun id => id.value.toNat) heq
  simp only [toNat_idAt h, toNat_idAt hother] at hnat
  omega

theorem idAt_ne_reserved (h : position < Registry.maxChannelId) : idAt position ≠ .reserved := by
  intro heq
  have hnat := congrArg (fun id => id.value.toNat) heq
  simp only [toNat_idAt h] at hnat
  simp only [Registry.maxChannelId] at h
  have hreserved : ChannelId.reserved.value.toNat = 4294967295 := rfl
  omega

end Ids

/-- The id of the channel with a name. -/
def idOf? (channels : List ChannelSettings) (name : String) : Option ChannelId :=
  (channels.findIdx? (·.name = name)).map idAt

/-- The ids of the channels below a parent. -/
def idsBelow (channels : List ChannelSettings) (parent : String) : List ChannelId :=
  (channels.zipIdx.filter (·.1.parent = some parent)).map (idAt ·.2)

section Names

variable {before : List ChannelSettings} {channel : ChannelSettings}

theorem idOf?_concat (before : List ChannelSettings) (channel : ChannelSettings) (name : String) :
    idOf? (before ++ [channel]) name =
      (idOf? before name).or (if channel.name = name then some (idAt before.length) else none) := by
  unfold idOf?
  rw [List.findIdx?_append, List.findIdx?_singleton]
  cases before.findIdx? (·.name = name) with
  | some position => rfl
  | none => by_cases h : channel.name = name <;> simp [h]

theorem idsBelow_concat (before : List ChannelSettings) (channel : ChannelSettings)
    (parent : String) :
    idsBelow (before ++ [channel]) parent = idsBelow before parent ++
      if channel.parent = some parent then [idAt before.length] else [] := by
  unfold idsBelow
  rw [List.zipIdx_append, List.filter_append, List.map_append]
  by_cases h : channel.parent = some parent <;> simp [h]

/-- The name of the last channel is a new one. -/
theorem Suitable.idOf?_last (h : Suitable (before ++ [channel])) :
    idOf? before channel.name = none := by
  rw [idOf?, Option.map_eq_none_iff, List.findIdx?_eq_none_iff]
  exact fun other hother => decide_eq_false (h.last.fresh other hother)

/-- A name leads to the position of the only channel that has it. -/
theorem Suitable.idOf?_eq (h : Suitable before) {position : Nat} {other : ChannelSettings}
    (hother : before[position]? = some other) : idOf? before other.name = some (idAt position) := by
  induction before using List.reverseRecOn with
  | nil => cases hother
  | append_singleton before channel ih =>
      rw [idOf?_concat]
      rcases Nat.lt_trichotomy position before.length with hlt | rfl | hgt
      · rw [List.getElem?_append_left hlt] at hother
        rw [ih h.of_append hother, Option.some_or]
      · rw [List.getElem?_concat_length] at hother
        cases hother
        rw [h.idOf?_last, Option.none_or, if_pos rfl]
      · have hlength : (before ++ [channel]).length ≤ position := by
          rw [List.length_append, List.length_singleton]
          omega
        rw [List.getElem?_eq_none hlength] at hother
        cases hother

/-- The name of a channel that is there leads to its position. -/
theorem Suitable.exists_idOf? (h : Suitable before) {other : ChannelSettings}
    (hother : other ∈ before) : ∃ position, before[position]? = some other ∧
      position < before.length ∧ idOf? before other.name = some (idAt position) := by
  obtain ⟨position, hposition⟩ := List.mem_iff_getElem?.mp hother
  obtain ⟨hlt, -⟩ := List.getElem?_eq_some_iff.mp hposition
  exact ⟨position, hposition, hlt, h.idOf?_eq hposition⟩

end Names

/-! ## The plan -/

namespace ChannelSettings

/-- The metadata as the registry has it: what has a password also has the flag. -/
def shown (channel : ChannelSettings) : Metadata :=
  match channel.password with
  | some _ => { channel.info with flags := channel.info.flags.union .password }
  | none => channel.info

/-- The password in its buffer. -/
def lock (channel : ChannelSettings) : Password :=
  match channel.password with
  | some text => (Password.ofBytes (Text.bytes text)).toOption.getD .empty
  | none => .empty

/-- The channel before anything is said of its place in the tree. -/
def alone (id : ChannelId) (channel : ChannelSettings) : Channel :=
  { id, info := channel.shown, password := channel.lock }

/-- The channel at a position among all channels. -/
def planned (channels : List ChannelSettings) (position : Nat) (channel : ChannelSettings) :
    Channel :=
  { channel.alone (idAt position) with
    parent := channel.parent.bind (idOf? channels)
    subchannels := idsBelow channels channel.name }

theorem parent_planned_of_top {channels : List ChannelSettings} {position : Nat}
    {channel : ChannelSettings} (htop : channel.parent = none) :
    (channel.planned channels position).parent = none := by
  rw [planned, htop]
  rfl

theorem parent_planned_of_below {channels : List ChannelSettings} {position : Nat}
    {channel : ChannelSettings} {parent : String} {id : ChannelId}
    (hparent : channel.parent = some parent) (hid : idOf? channels parent = some id) :
    (channel.planned channels position).parent = some id := by
  rw [planned, hparent]
  exact hid

/-- A flag other than that of the password is shown exactly if it is named. -/
theorem has_shown {channel : ChannelSettings} (hvalid : channel.metadata = .ok channel.info)
    {name : String} {flag : Flags} (hname : Flags.ofName? name = some flag)
    (hother : Flags.password.bits &&& flag.bits = 0) :
    channel.shown.flags.has flag = decide (name ∈ channel.flags) := by
  rw [← has_info hvalid hname, shown]
  split
  · exact Flags.has_union_of_disjoint _ hother
  · rfl

end ChannelSettings

/-- The registry with the channels in order. -/
def plan (limits : Limits) (channels : List ChannelSettings) : Registry :=
  { Registry.empty limits with
    channels := ⟨limits.channels, channels.mapIdx (ChannelSettings.planned channels)⟩ }

section Plan

variable {limits : Limits} {before channels : List ChannelSettings} {channel : ChannelSettings}

theorem ids_plan (limits : Limits) (channels : List ChannelSettings) :
    (plan limits channels).channels.ids = (List.range channels.length).map idAt := by
  refine List.ext_getElem (by simp [Slots.ids, plan]) fun position h h' => ?_
  simp only [Slots.ids, plan, List.getElem_map, List.getElem_mapIdx, List.getElem_range]
  rfl

theorem nodup_ids_plan (h : channels.length ≤ Registry.maxChannelId) :
    (plan limits channels).channels.ids.Nodup := by
  rw [ids_plan]
  refine List.Nodup.map_on (fun position hposition other hother heq => ?_) List.nodup_range
  have hlt := List.mem_range.mp hposition
  have hlt' := List.mem_range.mp hother
  exact (idAt_inj (by omega) (by omega)).mp heq

/-- The ids are 1, 2, 3 and so on. -/
theorem numbers_plan (h : channels.length ≤ Registry.maxChannelId) :
    (plan limits channels).channels.entries.map (·.id.value.toNat) =
      List.range' 1 channels.length := by
  have hnumbers : (plan limits channels).channels.entries.map (·.id.value.toNat) =
      (plan limits channels).channels.ids.map (·.value.toNat) := by
    rw [Slots.ids, List.map_map]
    rfl
  rw [hnumbers, ids_plan, List.map_map, List.range'_eq_map_range]
  refine List.map_congr_left fun position hposition => ?_
  have hlt := List.mem_range.mp hposition
  exact (toNat_idAt (by omega)).trans (Nat.add_comm _ _)

theorem getElem?_plan {position : Nat} (hchannel : channels[position]? = some channel) :
    (plan limits channels).channels.entries[position]? =
      some (channel.planned channels position) := by
  simp [plan, hchannel]

theorem get?_plan (h : channels.length ≤ Registry.maxChannelId) {position : Nat}
    (hchannel : channels[position]? = some channel) :
    (plan limits channels).channels.get? (idAt position) =
      some (channel.planned channels position) := by
  refine (Slots.get?_eq_some_iff (nodup_ids_plan h)).mpr ⟨?_, rfl⟩
  exact List.mem_of_getElem? (getElem?_plan hchannel)

theorem get?_plan_eq_none {position : Nat} (h : channels.length ≤ position)
    (hposition : position < Registry.maxChannelId) :
    (plan limits channels).channels.get? (idAt position) = none := by
  rw [Slots.get?_eq_none, ids_plan, List.mem_map]
  rintro ⟨other, hother, heq⟩
  have hlt := List.mem_range.mp hother
  have := (idAt_inj (by omega) hposition).mp heq
  omega

/-- There is a default channel exactly if some channel names the flag. -/
theorem hasDefault_plan (h : Suitable channels) :
    (plan limits channels).HasDefault ↔ ∃ channel ∈ channels, "default" ∈ channel.flags := by
  have hflag {channel : ChannelSettings} (hmem : channel ∈ channels) :
      channel.shown.flags.has .default = decide ("default" ∈ channel.flags) :=
    channel.has_shown (h.valid hmem) Flags.ofName?_default (by decide)
  constructor
  · rintro ⟨c, hc, -, hdefault⟩
    obtain ⟨position, hposition, rfl⟩ := List.mem_mapIdx.mp hc
    refine ⟨channels[position], List.getElem_mem hposition, ?_⟩
    exact of_decide_eq_true ((hflag (List.getElem_mem hposition)).symm.trans hdefault)
  · rintro ⟨channel, hmem, hdefault⟩
    obtain ⟨position, hposition, rfl⟩ := List.mem_iff_getElem.mp hmem
    refine ⟨_, List.mem_mapIdx.mpr ⟨position, hposition, rfl⟩, ?_, ?_⟩
    · obtain ⟨earlier, -, hsuits⟩ := h.suits_of_mem hmem
      cases hparent : channels[position].parent with
      | none => exact ChannelSettings.parent_planned_of_top hparent
      | some parent => exact absurd hdefault (hsuits.placed parent hparent).1
    · exact (hflag hmem).trans (decide_eq_true hdefault)

/-! ## One more channel -/

/-- All parents are named before the last channel. -/
theorem Suitable.parent_found (h : Suitable (before ++ [channel])) {other : ChannelSettings}
    (hother : other ∈ before ++ [channel]) {parent : String} (hparent : other.parent = some parent) :
    ∃ found ∈ before, found.name = parent := by
  rcases List.mem_append.mp hother with hother | hother
  · obtain ⟨earlier, hearlier, hsuits⟩ := h.of_append.suits_of_mem hother
    obtain ⟨-, -, found, hfound, hname, -⟩ := hsuits.placed parent hparent
    exact ⟨found, hearlier hfound, hname⟩
  · cases List.mem_singleton.mp hother
    obtain ⟨-, -, found, hfound, hname, -⟩ := h.last.placed parent hparent
    exact ⟨found, hfound, hname⟩

/-- So the last channel changes no parent. -/
theorem Suitable.bind_idOf?_concat (h : Suitable (before ++ [channel])) {other : ChannelSettings}
    (hother : other ∈ before ++ [channel]) :
    other.parent.bind (idOf? (before ++ [channel])) = other.parent.bind (idOf? before) := by
  cases hparent : other.parent with
  | none => rfl
  | some parent =>
      obtain ⟨found, hfound, rfl⟩ := h.parent_found hother hparent
      obtain ⟨place, -, -, hid⟩ := h.of_append.exists_idOf? hfound
      rw [Option.bind_some, Option.bind_some, idOf?_concat, hid, Option.some_or]

/-- What is planned of a channel if another one comes after it. -/
theorem planned_concat (h : Suitable (before ++ [channel])) {position : Nat}
    {other : ChannelSettings} (hother : other ∈ before) :
    other.planned (before ++ [channel]) position =
      if channel.parent = some other.name then
        (other.planned before position).adopt (idAt before.length)
      else other.planned before position := by
  unfold ChannelSettings.planned
  rw [h.bind_idOf?_concat (List.mem_append_left _ hother), idsBelow_concat]
  split
  · rfl
  · rw [List.append_nil]

/-- What is planned of the last channel: it has no subchannels. -/
theorem planned_last (h : Suitable (before ++ [channel])) :
    channel.planned (before ++ [channel]) before.length =
      { channel.alone (idAt before.length) with
        parent := channel.parent.bind (idOf? before) } := by
  -- All parents are named before, and the name of the last channel is a new one.
  have hchildless : ∀ other ∈ before ++ [channel], other.parent ≠ some channel.name := by
    intro other hother hparent
    obtain ⟨found, hfound, hname⟩ := h.parent_found hother hparent
    exact h.last.fresh found hfound hname
  have hnone : idsBelow (before ++ [channel]) channel.name = [] := by
    rw [idsBelow, List.map_eq_nil_iff, List.filter_eq_nil_iff]
    rintro ⟨other, position⟩ hplaced
    exact fun heq => hchildless other (List.fst_mem_of_mem_zipIdx hplaced) (of_decide_eq_true heq)
  rw [ChannelSettings.planned, h.bind_idOf?_concat List.mem_concat_self, hnone]
  rfl

/-- The parent of the last channel is the channel with its id. -/
theorem parent_eq_some_name (h : Suitable (before ++ [channel]))
    (hids : before.length ≤ Registry.maxChannelId) {position : Nat} {other : ChannelSettings}
    (hother : before[position]? = some other) : channel.parent = some other.name ↔
      channel.parent.bind (idOf? before) = some (idAt position) := by
  have hown := h.of_append.idOf?_eq hother
  constructor
  · intro hname
    rw [hname, Option.bind_some, hown]
  · intro hid
    obtain ⟨parent, hname, hparent⟩ := Option.bind_eq_some_iff.mp hid
    obtain ⟨found, hfound, rfl⟩ := h.parent_found List.mem_concat_self hname
    obtain ⟨place, hplace, hlt, hid'⟩ := h.of_append.exists_idOf? hfound
    obtain ⟨hposition, -⟩ := List.getElem?_eq_some_iff.mp hother
    have hsame : place = position := by
      refine (idAt_inj (by omega) (by omega)).mp (Option.some.inj ?_)
      rw [← hid', ← hparent]
    rw [hsame, hother] at hplace
    cases hplace
    exact hname

/-- The plan with one more channel. -/
theorem entries_plan_concat (h : Suitable (before ++ [channel]))
    (hids : before.length ≤ Registry.maxChannelId) :
    (plan limits (before ++ [channel])).channels.entries =
      (plan limits before).channels.entries.map (fun c =>
        if channel.parent.bind (idOf? before) = some c.id then c.adopt (idAt before.length)
        else c) ++
      [{ channel.alone (idAt before.length) with
        parent := channel.parent.bind (idOf? before) }] := by
  have hbefore : before.mapIdx (ChannelSettings.planned (before ++ [channel])) =
      (before.mapIdx (ChannelSettings.planned before)).map fun c =>
        if channel.parent.bind (idOf? before) = some c.id then c.adopt (idAt before.length)
        else c := by
    refine List.ext_getElem (by simp) fun position hposition _ => ?_
    rw [List.length_mapIdx] at hposition
    rw [List.getElem_map, List.getElem_mapIdx, List.getElem_mapIdx,
      planned_concat h (List.getElem_mem hposition)]
    refine if_congr ?_ rfl rfl
    exact parent_eq_some_name h hids (List.getElem?_eq_getElem hposition)
  have hconcat : (plan limits (before ++ [channel])).channels.entries =
      before.mapIdx (ChannelSettings.planned (before ++ [channel])) ++
        [channel.planned (before ++ [channel]) before.length] := List.mapIdx_concat
  rw [hconcat, hbefore, planned_last h]
  rfl

/-- A channel without a parent comes to the end. -/
theorem plan_concat_top (h : Suitable (before ++ [channel]))
    (hids : before.length ≤ Registry.maxChannelId) (htop : channel.parent = none) :
    plan limits (before ++ [channel]) =
      (plan limits before).joined (channel.alone (idAt before.length)) := by
  have hentries := @entries_plan_concat limits before channel h hids
  simp only [htop, Option.bind_none, reduceCtorEq, if_false, List.map_id'] at hentries
  exact congrArg (fun entries => { Registry.empty limits with
    channels := ⟨limits.channels, entries⟩ }) hentries

/-- A channel with a parent comes to the end, and the parent has one more subchannel. -/
theorem plan_concat_below (h : Suitable (before ++ [channel]))
    (hids : before.length ≤ Registry.maxChannelId) {parent : String} {parentId : ChannelId}
    (hparent : channel.parent = some parent) (hid : idOf? before parent = some parentId) :
    plan limits (before ++ [channel]) =
      ((plan limits before).withChange parentId (Channel.adopt (idAt before.length))).joined
        ((channel.alone (idAt before.length)).sink parentId) := by
  have hmodify := Slots.entries_modify (@nodup_ids_plan limits before hids) parentId
    (Channel.adopt (idAt before.length))
  have hadopt : (plan limits before).channels.entries.map (fun c =>
      if some parentId = some c.id then c.adopt (idAt before.length) else c) =
        ((plan limits before).withChange parentId
          (Channel.adopt (idAt before.length))).channels.entries := by
    refine Eq.trans (List.map_congr_left fun c _ => ?_) hmodify.symm
    exact if_congr (by rw [Option.some.injEq]; exact eq_comm) rfl rfl
  have hentries := @entries_plan_concat limits before channel h hids
  rw [hparent, Option.bind_some, hid, hadopt] at hentries
  exact congrArg (fun entries => { Registry.empty limits with
    channels := ⟨limits.channels, entries⟩ }) hentries

end Plan

end Config

end ChannelServer
