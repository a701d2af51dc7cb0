import ChannelServer.Proofs.Change
import ChannelServer.Proofs.Config.Plan
import ChannelServer.Proofs.Effect.Players

/-!
# Setting up what was checked

The check knows the channels by their names and setting them up knows them by their ids.  Both go
through the channels in the same order, so after the same channels the one knows the settings of
these channels and the other has the registry that is planned for them.  From there each action on
the registry succeeds or fails for a cause that the check does not look for: there is no room, or
the password is none that a channel can have.

## Main results

* `addChannel_plan`, `setPassword_plan`, `attach_plan`: what the actions do to a planned registry.
* `Site.Holds.add`: one more channel.
* `build_eq_ok`: when a registry is set up, and which registry it is.
* `build_of_not_feasible`: what can go wrong.
-/

namespace ChannelServer

namespace Config

/-- There is room for so many channels. -/
structure Room (limits : Limits) (count : Nat) : Prop where
  slots : count ≤ limits.channels
  ids : count ≤ Registry.maxChannelId

/-- The password, if there is one, is short enough and holds no NUL byte. -/
def ChannelSettings.Lockable (channel : ChannelSettings) : Prop :=
  ∀ text, channel.password = some text →
    (Text.bytes text).length ≤ Password.maxLength ∧ 0 ∉ Text.bytes text

section Actions

variable {limits : Limits} {before : List ChannelSettings} {channel : ChannelSettings}

theorem mem_ids_plan (h : before.length ≤ Registry.maxChannelId) {id : ChannelId} :
    id ∈ (plan limits before).channels.ids ↔
      1 ≤ Numbered.number id ∧ Numbered.number id ≤ before.length := by
  have hnumbers : (plan limits before).channels.numbers = List.range' 1 before.length :=
    numbers_plan h
  rw [← Slots.mem_numbers, hnumbers, List.mem_range'_1]
  omega

/-- The next id is the one after those of the channels. -/
theorem next_plan (h : before.length < Registry.maxChannelId) :
    (plan limits before).channels.Next (idAt before.length) := by
  have hnumber : Numbered.number (idAt before.length) = before.length + 1 := toNat_idAt h
  have hmem := @mem_ids_plan limits before (Nat.le_of_lt h)
  constructor
  · omega
  · exact hnumber ▸ h
  · exact fun hid => by have := hmem.mp hid; omega
  · exact fun other hpos hlt => hmem.mpr ⟨hpos, by omega⟩

/-- A second default channel is not suitable. -/
theorem Suitable.single_plan (h : Suitable (before ++ [channel]))
    (hdefault : channel.info.flags.has .default = true) : ¬ (plan limits before).HasDefault := by
  rw [channel.has_info h.last.valid Flags.ofName?_default, decide_eq_true_eq] at hdefault
  rw [hasDefault_plan h.of_append]
  rintro ⟨other, hother, hdefault'⟩
  exact h.last.single hdefault other hother hdefault'

theorem addChannel_plan (h : Suitable (before ++ [channel]))
    (hroom : Room limits (before.length + 1)) :
    Registry.addChannel channel.info (plan limits before) =
      .ok (idAt before.length)
        ((plan limits before).withChannel (idAt before.length) channel.info) :=
  (Registry.addChannel_allOrNothing (next_plan hroom.ids) channel.info).ok
    { valid := channel.check_info h.last.valid
      notReserved := idAt_ne_reserved hroom.ids
      free := @get?_plan_eq_none limits before _ (Nat.le_refl _) hroom.ids
      single := h.single_plan
      room := by simpa [plan] using Nat.lt_of_succ_le hroom.slots }

/-- Without room, one more channel is refused for the room. -/
theorem addChannel_plan_full (h : Suitable (before ++ [channel]))
    (hids : before.length ≤ Registry.maxChannelId)
    (hroom : ¬ Room limits (before.length + 1)) :
    Registry.addChannel channel.info (plan limits before) =
      .error (.slotsFull limits.channels) (plan limits before) := by
  by_cases hlast : before.length + 1 ≤ Registry.maxChannelId
  · have hfull : limits.channels ≤ before.length := by
      by_contra hslots
      exact hroom ⟨by omega, hlast⟩
    have hadd := Registry.addChannelAs_full (channel.check_info h.last.valid)
      (idAt_ne_reserved hlast) (@get?_plan_eq_none limits before _ (Nat.le_refl _) hlast)
      h.single_plan (by simpa [plan] using hfull)
    rw [Registry.addChannel_of_next (next_plan hlast), bind_apply, hadd]
    rfl
  · have hlargest : Numbered.largest ChannelId ≤ before.length := Nat.le_of_not_lt hlast
    have hexhausted : (plan limits before).channels.Exhausted := fun id hpos hmax =>
      (mem_ids_plan hids).mpr ⟨hpos, Nat.le_trans hmax hlargest⟩
    exact Registry.addChannel_of_exhausted hexhausted _

/-- With its password, the channel is as it will be but for its place in the tree. -/
theorem setPassword_plan (hids : before.length < Registry.maxChannelId) {text : String}
    (htext : channel.password = some text) (hlock : channel.Lockable) :
    Registry.setPassword (idAt before.length) (Text.bytes text)
        ((plan limits before).withChannel (idAt before.length) channel.info) =
      .ok () ((plan limits before).joined (channel.alone (idAt before.length))) := by
  obtain ⟨password, hpassword⟩ := Password.exists_ofBytes.mpr (hlock text htext)
  have hfree := @get?_plan_eq_none limits before before.length (Nat.le_refl _) hids
  have hfound := Registry.get?_withChannel hfree channel.info (idAt before.length)
  rw [if_pos rfl] at hfound
  have hset := (Registry.setPassword_allOrNothing hpassword).ok ⟨_, hfound, rfl⟩
  have hprotect := @Registry.withChange_joined (plan limits before)
    { id := idAt before.length, info := channel.info } _ rfl hfree (Channel.protect password)
  have halone : Channel.protect password { id := idAt before.length, info := channel.info } =
      channel.alone (idAt before.length) := by
    simp only [ChannelSettings.alone, ChannelSettings.shown, ChannelSettings.lock, htext,
      hpassword, Except.toOption, Option.getD_some]
    rfl
  rw [hset, ← halone, ← hprotect]
  rfl

/-- Without a password, the channel is as it will be but for its place in the tree. -/
theorem withChannel_plan (hopen : channel.password = none) :
    (plan limits before).withChannel (idAt before.length) channel.info =
      (plan limits before).joined (channel.alone (idAt before.length)) := by
  simp only [Registry.withChannel, Registry.joined, ChannelSettings.alone, ChannelSettings.shown,
    ChannelSettings.lock, hopen]

/-- A parent that the check has found is found under its id and takes the channel. -/
theorem attach_plan (h : Suitable (before ++ [channel]))
    (hids : before.length < Registry.maxChannelId) {parent : String}
    (hparent : channel.parent = some parent) : ∃ parentId, idOf? before parent = some parentId ∧
      Registry.attach parentId (idAt before.length)
          ((plan limits before).joined (channel.alone (idAt before.length))) =
        .ok () (plan limits (before ++ [channel])) := by
  obtain ⟨hdefault, -, found, hfound, rfl, htop, htakes⟩ := h.last.placed parent hparent
  obtain ⟨place, hplace, hlt, hid⟩ := h.of_append.exists_idOf? hfound
  refine ⟨idAt place, hid, ?_⟩
  have hne : idAt place ≠ idAt before.length := fun heq =>
    Nat.ne_of_lt hlt ((idAt_inj (by omega) hids).mp heq)
  have hfree := @get?_plan_eq_none limits before before.length (Nat.le_refl _) hids
  have hattachable : Registry.Attachable
      ((plan limits before).joined (channel.alone (idAt before.length))) (idAt place)
      (idAt before.length) (found.planned before place) (channel.alone (idAt before.length)) :=
    { parentFound := by
        rw [Registry.get?_joined, get?_plan (Nat.le_of_lt hids) hplace, Option.some_or]
      childFound := by
        rw [Registry.get?_joined, hfree, Option.none_or]
        exact if_pos rfl
      parentTop := ChannelSettings.parent_planned_of_top htop
      takesSubchannels := (found.has_shown (h.of_append.valid hfound) Flags.ofName?_subchannels
        (by decide)).trans (decide_eq_true htakes)
      distinct := hne
      childless := rfl
      notDefault := fun _ => (channel.has_shown h.last.valid Flags.ofName?_default
        (by decide)).trans (decide_eq_false hdefault)
      formerFound := nofun }
  have hlink : ((plan limits before).joined (channel.alone (idAt before.length))).link (idAt place)
      (idAt before.length) = plan limits (before ++ [channel]) := by
    rw [plan_concat_below h (Nat.le_of_lt hids) hparent hid]
    exact Registry.link_joined rfl hfree (Ne.symm hne)
  rw [(Registry.attach_allOrNothing _ _).ok ⟨_, _, hattachable⟩, Registry.graft,
    Registry.free_of_top hattachable.childFound rfl, hlink]

end Actions

/-! ## One more channel -/

namespace Site

variable {α : Type} {site : Site} {action : Registry.Action α} {context : Fault → SettingsFault}

theorem perform_of_ok {answer : α} {registry : Registry}
    (h : action site.registry = .ok answer registry) :
    site.perform action context = .ok (answer, { site with registry }) := by
  rw [perform, h]

theorem perform_of_error {fault : Fault} {registry : Registry}
    (h : action site.registry = .error fault registry) :
    site.perform action context = .error (context fault) := by
  rw [perform, h]

/-- After some channels there is the registry that is planned for them, and the names lead to the
ids. -/
structure Holds (limits : Limits) (before : List ChannelSettings) (site : Site) : Prop where
  registry : site.registry = plan limits before
  ids : ∀ name, site.ids.lookup name = idOf? before name

namespace Holds

variable {limits : Limits} {before : List ChannelSettings} {channel : ChannelSettings}

/-- One more channel, if there is room for it and its password is one. -/
theorem add (hsite : site.Holds limits before) (h : Suitable (before ++ [channel]))
    (hroom : Room limits (before.length + 1)) (hlock : channel.Lockable) :
    ∃ site', site.add channel = .ok site' ∧ site'.Holds limits (before ++ [channel]) := by
  obtain ⟨registry, ids⟩ := site
  obtain ⟨rfl, hids⟩ := hsite
  have hadd := addChannel_plan h hroom
  refine ⟨⟨plan limits (before ++ [channel]), (channel.name, idAt before.length) :: ids⟩, ?_, rfl,
    fun name => ?_⟩
  · unfold Site.add
    refine bind_eq_ok.mpr ⟨_, h.last.valid, bind_eq_ok.mpr ⟨_, perform_of_ok hadd, ?_⟩⟩
    dsimp -zeta only
    extract_lets named below
    -- With or without a password, what is left is to find the place in the tree.
    have hbelow : below ⟨(plan limits before).joined (channel.alone (idAt before.length)), ids⟩ =
        .ok ⟨plan limits (before ++ [channel]), (channel.name, idAt before.length) :: ids⟩ := by
      cases hparent : channel.parent with
      | none =>
          simp only [below, hparent, ← plan_concat_top h (Nat.le_of_lt hroom.ids) hparent]
          rfl
      | some parent =>
          obtain ⟨parentId, hid, hattach⟩ := @attach_plan limits _ _ h hroom.ids _ hparent
          simp only [below, hparent, hids, hid]
          exact bind_eq_ok.mpr ⟨_, perform_of_ok hattach, rfl⟩
    cases hpassword : channel.password with
    | none =>
        rw [withChannel_plan hpassword]
        exact hbelow
    | some text =>
        have hset := @setPassword_plan limits _ _ hroom.ids _ hpassword hlock
        exact bind_eq_ok.mpr ⟨_, perform_of_ok hset, hbelow⟩
  · rw [List.lookup_cons, idOf?_concat, hids]
    by_cases hname : channel.name = name
    · subst hname
      rw [beq_self_eq_true, h.idOf?_last, Option.none_or, if_pos rfl]
    · rw [if_neg hname, Option.or_none, beq_eq_false_iff_ne.mpr (Ne.symm hname)]

/-- Without room for it, the channel is refused for the room. -/
theorem add_of_full (hsite : site.Holds limits before) (h : Suitable (before ++ [channel]))
    (hroom : Room limits before.length) (hfull : ¬ Room limits (before.length + 1)) :
    site.add channel = .error (.notAdded channel.name (.slotsFull limits.channels)) := by
  obtain ⟨registry, ids⟩ := site
  obtain ⟨rfl, -⟩ := hsite
  have hadd := addChannel_plan_full h hroom.ids hfull
  have hperform := @perform_of_error _ ⟨plan limits before, ids⟩ _
    (SettingsFault.notAdded channel.name) _ _ hadd
  unfold Site.add
  exact (bind_of_ok h.last.valid _).trans (bind_of_error hperform _)

/-- With room for it, the channel is refused for its password. -/
theorem add_of_locked (hsite : site.Holds limits before) (h : Suitable (before ++ [channel]))
    (hroom : Room limits (before.length + 1)) {text : String}
    (htext : channel.password = some text) {cause : Fault}
    (hcause : Password.ofBytes (Text.bytes text) = .error cause) :
    site.add channel = .error (.badPassword channel.name cause) := by
  obtain ⟨registry, ids⟩ := site
  obtain ⟨rfl, -⟩ := hsite
  have hadd := addChannel_plan h hroom
  have hnamed := @perform_of_ok _ ⟨plan limits before, ids⟩ _
    (SettingsFault.notAdded channel.name) _ _ hadd
  have hset := Registry.setPassword_error hcause (idAt before.length)
    ((plan limits before).withChannel (idAt before.length) channel.info)
  unfold Site.add
  refine (bind_of_ok h.last.valid _).trans ((bind_of_ok hnamed _).trans ?_)
  rw [htext]
  exact bind_of_error (perform_of_error hset) _

end Holds

end Site

/-! ## All channels -/

/-- What can go wrong with settings that were checked. -/
inductive Shortage (limits : Limits) (channels : List ChannelSettings) : SettingsFault → Prop
  | room {channel : ChannelSettings} : channel ∈ channels → ¬ Room limits channels.length →
      Shortage limits channels (.notAdded channel.name (.slotsFull limits.channels))
  | password {channel : ChannelSettings} {text : String} {cause : Fault} : channel ∈ channels →
      channel.password = some text → Password.ofBytes (Text.bytes text) = .error cause →
      Shortage limits channels (.badPassword channel.name cause)
  | noDefault : (∀ channel ∈ channels, "default" ∉ channel.flags) →
      Shortage limits channels (.noDefault (.missing .defaultChannel))

theorem Room.mono {limits : Limits} {count count' : Nat} (h : Room limits count')
    (hle : count ≤ count') : Room limits count :=
  ⟨Nat.le_trans hle h.slots, Nat.le_trans hle h.ids⟩

theorem ChannelSettings.exists_cause {channel : ChannelSettings} (h : ¬ channel.Lockable) :
    ∃ text cause, channel.password = some text ∧
      Password.ofBytes (Text.bytes text) = .error cause := by
  simp only [Lockable, not_forall] at h
  obtain ⟨text, htext, hlock⟩ := h
  cases hpassword : Password.ofBytes (Text.bytes text) with
  | ok password => exact absurd (Password.exists_ofBytes.mp ⟨password, hpassword⟩) hlock
  | error cause => exact ⟨text, cause, htext, hpassword⟩

namespace Site.Holds

variable {limits : Limits} {before later : List ChannelSettings} {site : Site}

/-- With room for all channels and with passwords that are some, all channels are added. -/
theorem addAll (hsite : site.Holds limits before) (h : Suitable (before ++ later))
    (hroom : Room limits (before ++ later).length) (hlock : ∀ channel ∈ later, channel.Lockable) :
    ∃ site', later.foldlM Site.add site = .ok site' ∧ site'.Holds limits (before ++ later) := by
  induction later generalizing before site with
  | nil => exact ⟨site, rfl, by rwa [List.append_nil]⟩
  | cons channel later ih =>
      obtain ⟨hfirst, hrest⟩ := List.forall_mem_cons.mp hlock
      rw [List.append_cons] at h hroom ⊢
      have hnext : Room limits (before.length + 1) := hroom.mono (by simp)
      obtain ⟨site', hadd, hsite'⟩ := hsite.add h.of_append hnext hfirst
      obtain ⟨site'', hall, hsite''⟩ := ih hsite' h hroom hrest
      exact ⟨site'', (bind_of_ok hadd _).trans hall, hsite''⟩

/-- Otherwise the first channel that cannot be added says why. -/
theorem addAll_error (hsite : site.Holds limits before) (h : Suitable (before ++ later))
    (hroom : Room limits before.length)
    (hnot : ¬ (Room limits (before ++ later).length ∧ ∀ channel ∈ later, channel.Lockable)) :
    ∃ fault, later.foldlM Site.add site = .error fault ∧
      Shortage limits (before ++ later) fault := by
  induction later generalizing before site with
  | nil => exact absurd ⟨by rwa [List.append_nil], nofun⟩ hnot
  | cons channel later ih =>
      have hmem : channel ∈ before ++ channel :: later := by simp
      rw [List.append_cons] at h hmem hnot ⊢
      by_cases hnext : Room limits (before.length + 1)
      · by_cases hlock : channel.Lockable
        · obtain ⟨site', hadd, hsite'⟩ := hsite.add h.of_append hnext hlock
          obtain ⟨fault, hfault, hshort⟩ := ih hsite' h (by simpa using hnext) fun hall =>
            hnot ⟨hall.1, List.forall_mem_cons.mpr ⟨hlock, hall.2⟩⟩
          exact ⟨fault, (bind_of_ok hadd _).trans hfault, hshort⟩
        · obtain ⟨text, cause, htext, hcause⟩ := channel.exists_cause hlock
          have hadd := hsite.add_of_locked h.of_append hnext htext hcause
          exact ⟨_, bind_of_error hadd _, .password hmem htext hcause⟩
      · have hadd := hsite.add_of_full h.of_append hroom hnext
        have hfull : ¬ Room limits (before ++ [channel] ++ later).length := fun hroom' =>
          hnext (hroom'.mono (by simp))
        exact ⟨_, bind_of_error hadd _, .room hmem hfull⟩

end Site.Holds

/-! ## All settings -/

/-- The settings are checked, some channel is the default channel, there is room for all channels,
and every password is one that a channel can have. -/
structure Settings.Feasible (settings : Settings) : Prop where
  checked : settings.check = .ok ()
  hasDefault : ∃ channel ∈ settings.channels, "default" ∈ channel.flags
  room : Room settings.server.limits settings.channels.length
  lockable : ∀ channel ∈ settings.channels, channel.Lockable

section Build

variable {settings : Settings}

/-- Nothing is planned for no channel. -/
theorem holds_nil (limits : Limits) : Site.Holds limits [] { registry := .empty limits } :=
  ⟨rfl, fun _ => rfl⟩

theorem build_of_feasible (h : settings.Feasible) :
    settings.build = .ok (plan settings.server.limits settings.channels) := by
  obtain ⟨-, -, hsuitable⟩ := check_eq_ok.mp h.checked
  obtain ⟨site, hall, hregistry, -⟩ :=
    (holds_nil settings.server.limits).addAll hsuitable h.room h.lockable
  obtain ⟨default, hdefault⟩ := Registry.exists_defaultChannel
    ((@hasDefault_plan settings.server.limits _ hsuitable).mpr h.hasDefault)
  unfold Settings.build
  refine (bind_of_ok h.checked _).trans ((bind_of_ok hall _).trans ?_)
  simp only [hregistry, List.nil_append, hdefault]
  rfl

/-- Of settings that were checked, those that are not feasible are short of something. -/
theorem build_of_not_feasible (hcheck : settings.check = .ok ()) (h : ¬ settings.Feasible) :
    ∃ fault, settings.build = .error fault ∧
      Shortage settings.server.limits settings.channels fault := by
  obtain ⟨-, -, hsuitable⟩ := check_eq_ok.mp hcheck
  have hempty := holds_nil settings.server.limits
  unfold Settings.build
  rw [bind_of_ok hcheck]
  by_cases hadd : Room settings.server.limits settings.channels.length ∧
      ∀ channel ∈ settings.channels, channel.Lockable
  · obtain ⟨site, hall, hregistry, -⟩ := hempty.addAll hsuitable hadd.1 hadd.2
    have hnone : ¬ ∃ channel ∈ settings.channels, "default" ∈ channel.flags := fun hdefault =>
      h ⟨hcheck, hdefault, hadd.1, hadd.2⟩
    have hdefault := Registry.defaultChannel_error
      (mt (@hasDefault_plan settings.server.limits _ hsuitable).mp hnone)
    refine ⟨_, (bind_of_ok hall _).trans ?_, .noDefault fun channel hmem hflag =>
      hnone ⟨channel, hmem, hflag⟩⟩
    simp only [hregistry, List.nil_append, hdefault]
    rfl
  · obtain ⟨fault, hall, hshort⟩ :=
      hempty.addAll_error hsuitable ⟨Nat.zero_le _, Nat.zero_le _⟩ hadd
    exact ⟨fault, bind_of_error hall _, hshort⟩

/-- A registry is set up exactly if the settings are feasible, and it is the one that is planned. -/
theorem build_eq_ok {registry : Registry} : settings.build = .ok registry ↔
    settings.Feasible ∧ registry = plan settings.server.limits settings.channels := by
  constructor
  · intro hbuild
    have hfeasible : settings.Feasible := by
      by_contra hnot
      obtain ⟨_, hcheck, -⟩ := bind_eq_ok.mp hbuild
      obtain ⟨fault, herror, -⟩ := build_of_not_feasible hcheck hnot
      rw [herror] at hbuild
      cases hbuild
    rw [build_of_feasible hfeasible] at hbuild
    cases hbuild
    exact ⟨hfeasible, rfl⟩
  · rintro ⟨hfeasible, rfl⟩
    exact build_of_feasible hfeasible

end Build

end Config

end ChannelServer
