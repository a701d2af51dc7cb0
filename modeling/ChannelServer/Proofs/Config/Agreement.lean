import ChannelServer.Proofs.Config.Build
import ChannelServer.Proofs.Protection

/-!
# The check and the registry agree

Two parts of the server know the rules of the channel tree.  The check reads them off the names in
the settings before there is any channel; the registry enforces them on ids while the channels are
set up.  Settings that pass the check are refused by the registry for want of room, for a password
or for want of a default channel, and never for the tree.

What has been set up can also be reached by the operations of a session, one after the other, and
no store is ever asked.

## Main results

* `run_setup`: setting up is a run that hands nothing over.
* `described_plan`: what is set up is what the settings describe.
* `build_agrees_with_check`: when setting up succeeds, with what, and what can go wrong.
-/

namespace ChannelServer

namespace Config

variable {limits : Limits} {before later channels : List ChannelSettings}
  {channel : ChannelSettings}

/-! ## Setting up as a run -/

/-- The operations that set up a channel after others. -/
def ChannelSettings.operations (before : List ChannelSettings) (channel : ChannelSettings) :
    List Operation :=
  .addChannel channel.info ::
    ((channel.password.map fun text =>
        .setPassword (idAt before.length) (Text.bytes text)).toList ++
      ((channel.parent.bind (idOf? before)).map fun parentId =>
        .attach parentId (idAt before.length)).toList)

/-- The operations that set up channels after others. -/
def setup (before : List ChannelSettings) : List ChannelSettings → List Operation
  | [] => []
  | channel :: later => channel.operations before ++ setup (before ++ [channel]) later

/-- An action that succeeds is an operation that hands nothing over. -/
theorem step_start {α : Type} {action : Registry.Action α} {answer : α → Answer} {a : α}
    {registry registry' : Registry} (hok : action registry = .ok a registry') {store : Store}
    {operation : Operation}
    (hperform : operation.perform store = Session.onRegistry action >>= fun a => pure (answer a)) :
    ((Session.start registry).step store operation).2 = .start registry' :=
  congrArg Prod.snd (Session.step_of_ok hok hperform)

/-- A channel is set up by its operations. -/
theorem run_operations (h : Suitable (before ++ [channel]))
    (hroom : Room limits (before.length + 1)) (hlock : channel.Lockable) (store : Store) :
    (Session.start (plan limits before)).run store (channel.operations before) =
      .start (plan limits (before ++ [channel])) := by
  have hadd : ((Session.start (plan limits before)).step store (.addChannel channel.info)).2 =
      .start ((plan limits before).withChannel (idAt before.length) channel.info) :=
    step_start (addChannel_plan h hroom) rfl
  have hlocked : ((Session.start ((plan limits before).withChannel (idAt before.length)
      channel.info)).run store (channel.password.map fun text =>
        .setPassword (idAt before.length) (Text.bytes text)).toList) =
          .start ((plan limits before).joined (channel.alone (idAt before.length))) := by
    cases hpassword : channel.password with
    | none => exact congrArg Session.start (withChannel_plan hpassword)
    | some text => exact step_start (setPassword_plan hroom.ids hpassword hlock) rfl
  have hplaced : ((Session.start ((plan limits before).joined
      (channel.alone (idAt before.length)))).run store
        ((channel.parent.bind (idOf? before)).map fun parentId =>
          .attach parentId (idAt before.length)).toList) =
            .start (plan limits (before ++ [channel])) := by
    cases hparent : channel.parent with
    | none => exact congrArg Session.start (plan_concat_top h (Nat.le_of_lt hroom.ids) hparent).symm
    | some parent =>
        obtain ⟨parentId, hid, hattach⟩ := @attach_plan limits _ _ h hroom.ids _ hparent
        rw [Option.bind_some, hid]
        exact step_start hattach rfl
  rw [ChannelSettings.operations, Session.run, List.foldl_cons, hadd, List.foldl_append]
  exact (congrArg _ hlocked).trans hplaced

/-- Channels are set up by their operations, and nothing is handed over. -/
theorem run_setup (h : Suitable (before ++ later)) (hroom : Room limits (before ++ later).length)
    (hlock : ∀ channel ∈ later, channel.Lockable) (store : Store) :
    (Session.start (plan limits before)).run store (setup before later) =
      .start (plan limits (before ++ later)) := by
  induction later generalizing before with
  | nil => rw [List.append_nil]; rfl
  | cons channel later ih =>
      obtain ⟨hfirst, hrest⟩ := List.forall_mem_cons.mp hlock
      rw [List.append_cons] at h hroom ⊢
      have hnext : Room limits (before.length + 1) := hroom.mono (by simp)
      have hchannel := run_operations h.of_append hnext hfirst store
      rw [setup, Session.run, List.foldl_append]
      exact (congrArg _ hchannel).trans (ih h hroom hrest)

/-! ## What is set up -/

/-- The registry is the one that the channels describe. -/
structure Described (limits : Limits) (channels : List ChannelSettings) (registry : Registry) :
    Prop where
  /-- The ids are 1, 2, 3 and so on. -/
  numbers : registry.channels.entries.map (·.id.value.toNat) = List.range' 1 channels.length
  /-- The metadata is that of the settings, in order. -/
  valid : ∀ channel ∈ channels, channel.metadata = .ok channel.info
  infos : registry.channels.entries.map (·.info) = channels.map (·.shown)
  top : ∀ (position : Nat) (channel : ChannelSettings), channels[position]? = some channel →
    channel.parent = none →
      ∃ c, registry.channels.entries[position]? = some c ∧ c.parent = none
  /-- What has a parent is linked with the channel before it that has the name, from both sides. -/
  below : ∀ (position : Nat) (channel : ChannelSettings) (parent : String),
    channels[position]? = some channel → channel.parent = some parent →
      ∃ (place : Nat) (other : ChannelSettings) (c p : Channel), place < position ∧
        channels[place]? = some other ∧ other.name = parent ∧
        registry.channels.entries[position]? = some c ∧
        registry.channels.entries[place]? = some p ∧
        c.parent = some p.id ∧ c.id ∈ p.subchannels
  /-- A password opens its channel, and nothing else does. -/
  opens : ∀ (position : Nat) (channel : ChannelSettings) (text : String),
    channels[position]? = some channel → channel.password = some text → ∀ candidate,
      registry.admits (idAt position) candidate = .ok (Text.bytes text == candidate)
  /-- A password opens the channels below its channel, and nothing else does. -/
  opensBelow : ∀ (position : Nat) (channel : ChannelSettings) (text : String),
    channels[position]? = some channel → channel.password = some text →
      ∀ (place : Nat) (child : ChannelSettings), channels[place]? = some child →
        child.parent = some channel.name → ∀ candidate,
          registry.admits (idAt place) candidate = .ok (Text.bytes text == candidate)
  /-- Nobody is there, and nobody has rights. -/
  deserted : registry.players.entries = [] ∧ registry.bans.entries = [] ∧
    ∀ c ∈ registry.channels.entries, c.members = [] ∧ c.records = []
  /-- A session with any store gets there, and nothing is handed over. -/
  unhanded : ∀ store, (Session.start (.empty limits)).run store (setup [] channels) =
    .start registry

section Described

theorem shown_protected {text : String} (htext : channel.password = some text) :
    channel.shown.flags.has .password = true := by
  rw [ChannelSettings.shown, htext]
  exact Flags.has_union_self _ _

theorem accepts_lock (hlock : channel.Lockable) {text : String}
    (htext : channel.password = some text) (candidate : List UInt8) :
    channel.lock.accepts candidate = (Text.bytes text == candidate) := by
  obtain ⟨password, hpassword⟩ := Password.exists_ofBytes.mpr (hlock text htext)
  rw [ChannelSettings.lock, htext]
  simp only [hpassword, Except.toOption, Option.getD_some, Password.accepts,
    Password.content_ofBytes hpassword]

/-- What has a parent is planned below the channel before it that has the name. -/
theorem Suitable.exists_parent (h : Suitable channels) {position : Nat} {parent : String}
    (hchannel : channels[position]? = some channel) (hparent : channel.parent = some parent) :
    ∃ place other, place < position ∧ channels[place]? = some other ∧ other.name = parent ∧
      other.parent = none ∧ idOf? channels parent = some (idAt place) := by
  obtain ⟨hposition, hget⟩ := List.getElem?_eq_some_iff.mp hchannel
  have hsplit : channels = channels.take position ++ channel :: channels.drop (position + 1) := by
    rw [← hget, List.getElem_cons_drop, List.take_append_drop]
  obtain ⟨-, -, other, hother, rfl, htop, -⟩ := (h _ _ _ hsplit).placed parent hparent
  obtain ⟨place, hplace⟩ := List.mem_iff_getElem?.mp hother
  obtain ⟨hlt, -⟩ := List.getElem?_eq_some_iff.mp hplace
  have hbefore : place < position := by
    rw [List.length_take] at hlt
    omega
  have hfound : channels[place]? = some other := by
    rw [← hplace, List.getElem?_take_of_lt hbefore]
  exact ⟨place, other, hbefore, hfound, rfl, htop, h.idOf?_eq hfound⟩

theorem mem_idsBelow {place : Nat} {child : ChannelSettings} {parent : String}
    (hchild : channels[place]? = some child) (hparent : child.parent = some parent) :
    idAt place ∈ idsBelow channels parent := by
  refine List.mem_map.mpr ⟨(child, place), List.mem_filter.mpr ⟨?_, decide_eq_true hparent⟩, rfl⟩
  exact List.mk_mem_zipIdx_iff_getElem?.mpr hchild

/-- What is planned is what the channels describe. -/
theorem described_plan (h : Suitable channels) (hroom : Room limits channels.length)
    (hlock : ∀ channel ∈ channels, channel.Lockable) :
    Described limits channels (plan limits channels) where
  numbers := numbers_plan hroom.ids
  valid _ hmem := h.valid hmem
  infos := by
    refine List.ext_getElem (by simp [plan]) fun position _ _ => ?_
    simp [plan, ChannelSettings.planned, ChannelSettings.alone]
  top _ _ hchannel htop :=
    ⟨_, getElem?_plan hchannel, ChannelSettings.parent_planned_of_top htop⟩
  below position channel parent hchannel hparent := by
    obtain ⟨place, other, hlt, hother, rfl, -, hid⟩ := h.exists_parent hchannel hparent
    exact ⟨place, other, _, _, hlt, hother, rfl, getElem?_plan hchannel, getElem?_plan hother,
      ChannelSettings.parent_planned_of_below hparent hid, mem_idsBelow hchannel hparent⟩
  opens position channel text hchannel htext candidate := by
    have hmem := List.mem_of_getElem? hchannel
    have htop : (channel.planned channels position).parent = none := by
      obtain ⟨_, -, hsuits⟩ := h.suits_of_mem hmem
      cases hparent : channel.parent with
      | none => exact ChannelSettings.parent_planned_of_top hparent
      | some parent =>
          have hopen := (hsuits.placed parent hparent).2.1
          rw [htext] at hopen
          cases hopen
    rw [← accepts_lock (hlock channel hmem) htext]
    exact Registry.admits_of_protected
      (Registry.owner_of_top (get?_plan hroom.ids hchannel) htop) (shown_protected htext) _
  opensBelow position channel text hchannel htext place child hchild hparent candidate := by
    have hbelow : (child.planned channels place).parent = some (idAt position) :=
      ChannelSettings.parent_planned_of_below hparent (h.idOf?_eq hchannel)
    rw [← accepts_lock (hlock channel (List.mem_of_getElem? hchannel)) htext]
    exact Registry.admits_of_protected (Registry.owner_of_below (get?_plan hroom.ids hchild) hbelow
      (get?_plan hroom.ids hchannel)) (shown_protected htext) _
  deserted := by
    refine ⟨rfl, rfl, fun c hc => ?_⟩
    obtain ⟨position, -, rfl⟩ := List.mem_mapIdx.mp hc
    exact ⟨rfl, rfl⟩
  unhanded store := @run_setup limits [] channels h hroom hlock store

end Described

/-- The check of the settings and the registry agree.  A registry is set up exactly from settings
that are checked, have a default channel, leave room and have passwords that are some.  It is the
registry that the settings describe.  Settings that are checked are refused for the room, for a
password or for the missing default channel, and for nothing else. -/
theorem build_agrees_with_check (settings : Settings) :
    ((∃ registry, settings.build = .ok registry) ↔ settings.Feasible) ∧
    (∀ registry, settings.build = .ok registry →
      registry = plan settings.server.limits settings.channels ∧
        Described settings.server.limits settings.channels registry) ∧
    (settings.check = .ok () → ∀ fault, settings.build = .error fault →
      Shortage settings.server.limits settings.channels fault) := by
  refine ⟨?_, fun registry hbuild => ?_, fun hcheck fault herror => ?_⟩
  · constructor
    · rintro ⟨registry, hbuild⟩
      exact (build_eq_ok.mp hbuild).1
    · intro hfeasible
      exact ⟨_, build_of_feasible hfeasible⟩
  · obtain ⟨hfeasible, rfl⟩ := build_eq_ok.mp hbuild
    obtain ⟨-, -, hsuitable⟩ := check_eq_ok.mp hfeasible.checked
    exact ⟨rfl, described_plan hsuitable hfeasible.room hfeasible.lockable⟩
  · have hnot : ¬ settings.Feasible := fun hfeasible => by
      rw [build_of_feasible hfeasible] at herror
      cases herror
    obtain ⟨fault', herror', hshort⟩ := build_of_not_feasible hcheck hnot
    rw [herror] at herror'
    cases herror'
    exact hshort

/-- A taproom, a cellar behind a password, and a wine cellar below it. -/
def tavern (limits : Limits) : Settings where
  server := { limits }
  channels :=
    [.standard, { name := "Keller", flags := ["subchannels"], password := some "bier" },
      { name := "Weinkeller", parent := some "Keller" }]

theorem feasible_tavern : (tavern {}).Feasible where
  checked := by decide +kernel
  hasDefault := ⟨.standard, List.mem_cons_self, by decide⟩
  room := ⟨by decide, by decide⟩
  lockable := by
    have hpasswords : ∀ channel ∈ (tavern {}).channels, channel.password.all (fun text =>
        decide ((Text.bytes text).length ≤ Password.maxLength ∧ 0 ∉ Text.bytes text)) = true := by
      decide +kernel
    intro channel hmem text htext
    have hpassword := hpasswords channel hmem
    rw [htext] at hpassword
    exact of_decide_eq_true hpassword

/-- The password of the cellar opens the wine cellar, and with two slots the wine cellar is refused
for the room. -/
theorem build_of_tavern :
    (∃ registry, (tavern {}).build = .ok registry ∧
      registry.admits (idAt 2) (Text.bytes "bier") = .ok true ∧
      registry.admits (idAt 2) (Text.bytes "wein") = .ok false ∧
      (Session.start (.empty {})).run (.refusing (.notStored .workerStopped))
        (setup [] (tavern {}).channels) = .start registry) ∧
    (tavern { channels := 2 }).check = .ok () ∧
      ∃ fault, (tavern { channels := 2 }).build = .error fault ∧
        Shortage { channels := 2 } (tavern {}).channels fault := by
  have hcheck : (tavern { channels := 2 }).check = .ok () := by decide +kernel
  obtain ⟨registry, hbuild⟩ := (build_agrees_with_check (tavern {})).1.mpr feasible_tavern
  obtain ⟨-, hdescribed⟩ := (build_agrees_with_check (tavern {})).2.1 registry hbuild
  refine ⟨⟨registry, hbuild, ?_, ?_, hdescribed.unhanded _⟩, hcheck, ?_⟩
  · rw [hdescribed.opensBelow 1 _ "bier" rfl rfl 2 _ rfl rfl, beq_self_eq_true]
  · rw [hdescribed.opensBelow 1 _ "bier" rfl rfl 2 _ rfl rfl]
    decide +kernel
  · cases hfault : (tavern { channels := 2 }).build with
    | ok registry =>
        have hfeasible := (build_agrees_with_check _).1.mp ⟨registry, hfault⟩
        exact absurd hfeasible.room.slots (by decide)
    | error fault =>
        exact ⟨fault, rfl, (build_agrees_with_check _).2.2 hcheck fault hfault⟩

end Config

end ChannelServer
