import ChannelServer.Proofs.Default
import Mathlib.Data.List.Induction

/-!
# How many members a channel has

A channel takes no more members than its limit, and only the default channel takes everybody.  The
limit is looked at when somebody joins, and at no other time.  So a channel can only have too many
members if it got them as the default channel and is the default channel no more: the flag goes to
another channel, and the members stay.

That is the one way there is.  A run is within the limits all the time exactly if it never takes the
flag from a channel with more members than its limit.

## Main results

* `withinLimits_step_iff`: which operations keep a session within the limits.
* `withinLimits_run_iff`: which runs are within the limits all the time.
* `not_withinLimits_after_move`: a run that is not.
-/

namespace ChannelServer

namespace Channel

/-- The channel has more members than its limit, and is not the default channel. -/
def Crowded (c : Channel) : Prop :=
  c.info.flags.has .default = false ∧
    ∃ max, c.info.capacity = .limited max ∧ max.toNat < c.members.length

variable {c c' : Channel}

/-- With the same limit and no more members, a channel is crowded only if it was. -/
theorem Crowded.of_fewer (h : c'.Crowded)
    (hflag : c'.info.flags.has .default = c.info.flags.has .default)
    (hcapacity : c'.info.capacity = c.info.capacity)
    (hmembers : c'.members.length ≤ c.members.length) : c.Crowded := by
  obtain ⟨hnot, max, hmax, hlt⟩ := h
  exact ⟨hflag.symm.trans hnot, max, hcapacity.symm.trans hmax, Nat.lt_of_lt_of_le hlt hmembers⟩

/-- Whoever finds room does not crowd the channel. -/
theorem Crowded.receive {who : PlayerId} (h : (c.receive who).Crowded)
    (hroom : who ∈ c.members ∨
      c.info.flags.has .default = true ∨ c.info.capacity.reachedBy c.members.length = false) :
    c.Crowded := by
  unfold Channel.receive at h
  split at h
  · exact h
  · rename_i hnew
    obtain ⟨hnot, max, hmax, hlt⟩ := h
    rcases hroom.resolve_left hnew with hflag | hreached
    · rw [hflag] at hnot
      cases hnot
    · have hfree : ¬ max.toNat ≤ c.members.length := by
        rw [hmax] at hreached
        exact of_decide_eq_false hreached
      simp only [List.length_append, List.length_singleton] at hlt
      omega

/-- No turn crowds a channel, except that the default flag goes. -/
theorem Crowded.turn {way : Registry.Way} (h : c'.Crowded) (hturn : Turn way c c')
    (hway : way ≠ .crown) : c.Crowded := by
  cases hturn with
  | crown _ _ => exact absurd rfl hway
  | resign _ => exact absurd rfl hway
  | edit edited =>
      exact h.of_fewer (edited.has_eq (by decide)) edited.capacity
        (Nat.le_of_eq (congrArg List.length edited.members))
  | setRights _ _ _ =>
      rw [setRights_eq] at h
      exact h
  | receive _ who hroom => exact h.receive hroom
  | forget _ who => exact h.of_fewer rfl rfl (List.length_filter_le _ _)
  | dropMember _ who => exact h.of_fewer rfl rfl (List.length_filter_le _ _)
  | _ => exact h

theorem not_crowded_crown : ¬ c.crown.Crowded := fun h => by
  have hflag : c.crown.info.flags.has .default = true := Flags.has_union_self _ _
  rw [h.1] at hflag
  cases hflag

/-- A channel that gives up the default flag is crowded if it has too many members. -/
theorem crowded_resignDefault :
    c.resignDefault.Crowded ↔ c.info.capacity.toWord.toNat < c.members.length := by
  constructor
  · rintro ⟨-, max, hmax, hlt⟩
    cases hmax
    exact hlt
  · exact fun hlt => ⟨Flags.not_has_without _ (by decide) (by decide), _, rfl, hlt⟩

end Channel

namespace Registry

variable {registry registry' : Registry}

/-- No channel has more members than its limit, except for the default channel. -/
def WithinLimits (registry : Registry) : Prop :=
  ∀ c ∈ registry.channels.entries, registry.defaultChannel ≠ .ok c →
    ∀ max, c.info.capacity = .limited max → c.members.length ≤ max.toNat

/-- The default flag is not taken from a channel with more members than its limit. -/
def Cautious (registry : Registry) : Operation → Prop
  | .setDefault id => ∀ d, registry.defaultChannel = .ok d → IsTop registry id → d.id ≠ id →
      d.members.length ≤ d.info.capacity.toWord.toNat
  | _ => True

theorem withinLimits_iff (hsound : Sound registry) :
    registry.WithinLimits ↔ ∀ id c, registry.channels.get? id = some c → ¬ c.Crowded := by
  constructor
  · rintro h id c hc ⟨hnot, max, hmax, hlt⟩
    have hother : registry.defaultChannel ≠ .ok c := fun hdefault => by
      rw [(defaultChannel_ok hdefault).2.2] at hnot
      cases hnot
    exact Nat.not_le.mpr hlt (h c (Slots.mem_of_get? hc) hother max hmax)
  · intro h c hc hother max hmax
    have hnot : c.info.flags.has .default = false := by
      rw [Bool.eq_false_iff]
      exact fun hflag => hother (hsound.defaultChannel_eq hc hflag).2
    by_contra hmany
    exact h c.id c (Slots.get?_of_mem hsound.forest.distinct hc)
      ⟨hnot, max, hmax, Nat.not_le.mp hmany⟩

/-! ## One step -/

/-- Every crowded channel was crowded before. -/
def CrowdsNone (registry registry' : Registry) : Prop :=
  ∀ id c', registry'.channels.get? id = some c' → c'.Crowded →
    ∃ c, registry.channels.get? id = some c ∧ c.Crowded

theorem crowdsNone_of_change (hforest : Forest registry) {way : Way}
    (hchange : Change registry way registry') (hway : way ≠ .crown) :
    CrowdsNone registry registry' := by
  intro id c' hc' hcrowded
  have hfate := fate_of_change hforest hchange id
  rw [hc'] at hfate
  generalize registry.channels.get? id = found at hfate ⊢
  cases hfate with
  | turned hturns =>
      exact ⟨_, rfl, hturns.relates (R := fun c c' => c'.Crowded → c.Crowded) (fun _ h => h)
        (fun _ _ _ h h' hc => h (h' hc)) (fun _ _ hturn hc => hc.turn hturn hway) hcrowded⟩
  | added =>
      obtain ⟨-, max, -, hlt⟩ := hcrowded
      exact absurd hlt (Nat.not_lt_zero _)

/-- When the default flag moves, nobody but the channel that had it can become crowded. -/
theorem crowded_crown (hids : registry.channels.ids.Nodup) {id id' : ChannelId} {c' : Channel}
    (hc' : (registry.crown id).channels.get? id' = some c') (hcrowded : c'.Crowded) :
    registry.channels.get? id' = some c' ∨
      ∃ d, registry.defaultChannel = .ok d ∧ d.id ≠ id ∧
        d.info.capacity.toWord.toNat < d.members.length := by
  unfold crown at hc'
  cases hdefault : registry.defaultChannel with
  | error fault =>
      rw [hdefault] at hc'
      have hget := @get?_withChange registry id Channel.crown (fun _ _ => rfl) id'
      rw [withChange] at hget
      simp only [hget] at hc'
      split at hc'
      · obtain ⟨c, -, rfl⟩ := Option.map_eq_some_iff.mp hc'
        exact absurd hcrowded Channel.not_crowded_crown
      · exact .inl hc'
  | ok former =>
      rw [hdefault] at hc'
      by_cases hid : former.id = id
      · simp only [hid, if_true] at hc'
        exact .inl hc'
      · simp only [hid, if_false, Slots.get?_modify _ _ _ Channel.crown fun _ => rfl,
          Slots.get?_modify _ _ _ Channel.resignDefault fun _ => rfl] at hc'
        split at hc'
        · obtain ⟨c, -, rfl⟩ := Option.map_eq_some_iff.mp hc'
          exact absurd hcrowded Channel.not_crowded_crown
        · split at hc'
          · subst id'
            have hformer : registry.channels.get? former.id = some former :=
              Slots.get?_of_mem hids (defaultChannel_ok hdefault).1
            rw [hformer, Option.map_some] at hc'
            cases hc'
            exact .inr ⟨former, rfl, hid, Channel.crowded_resignDefault.mp hcrowded⟩
          · exact .inl hc'

/-- If the channel that had the default flag has too many members, it is crowded without it. -/
theorem crowded_former (hids : registry.channels.ids.Nodup) {id : ChannelId} {d : Channel}
    (hd : registry.defaultChannel = .ok d) (hne : d.id ≠ id)
    (hmany : d.info.capacity.toWord.toNat < d.members.length) :
    (registry.crown id).channels.get? d.id = some d.resignDefault ∧ d.resignDefault.Crowded := by
  have hfound : registry.channels.get? d.id = some d :=
    Slots.get?_of_mem hids (defaultChannel_ok hd).1
  refine ⟨?_, Channel.crowded_resignDefault.mpr hmany⟩
  simp only [crown, hd, hne, if_false]
  rw [Slots.get?_modify _ _ _ Channel.crown fun _ => rfl,
    Slots.get?_modify _ _ _ Channel.resignDefault fun _ => rfl, if_neg hne, if_pos rfl, hfound,
    Option.map_some]

theorem withinLimits_crown_iff (hsound : Sound registry) {id : ChannelId}
    (htop : IsTop registry id) (hwithin : registry.WithinLimits) :
    (registry.crown id).WithinLimits ↔ registry.Cautious (.setDefault id) := by
  have hids := hsound.forest.distinct
  rw [withinLimits_iff (hsound.change (.crown htop))]
  constructor
  · intro hafter d hd _ hne
    by_contra hmany
    obtain ⟨hfound, hcrowded⟩ := crowded_former hids hd hne (Nat.not_le.mp hmany)
    exact hafter d.id _ hfound hcrowded
  · intro hcautious id' c' hc' hcrowded
    rcases crowded_crown hids hc' hcrowded with hold | ⟨d, hd, hne, hmany⟩
    · exact (withinLimits_iff hsound).mp hwithin id' c' hold hcrowded
    · exact Nat.not_le.mpr hmany (hcautious d hd htop hne)

end Registry

namespace Session

variable {store : Store} {limits : Limits} {session : Session}

open Registry (Sound IsTop CrowdsNone)

/-- No operation crowds a channel, except that the default flag moves. -/
theorem crowdsNone_step (store : Store) (hsound : Sound session.registry) {operation : Operation}
    (hmove : ∀ id, operation ≠ .setDefault id) :
    CrowdsNone session.registry (session.step store operation).2.registry := by
  have hways : ∀ way ∈ operation.ways, way ≠ .crown := by
    cases operation with
    | setDefault id => exact absurd rfl (hmove id)
    | _ => simp [Operation.ways, Registry.importing]
  refine step_relates_of_sound (fun _ _ c hc hcrowded => ⟨c, hc, hcrowded⟩) ?_
    (fun _ way _ hr hway hchange =>
      Registry.crowdsNone_of_change hr.forest hchange (hways way hway)) hsound
  intro _ _ _ h h' id c'' hc'' hcrowded''
  obtain ⟨c', hc', hcrowded'⟩ := h' id c'' hc'' hcrowded''
  exact h id c' hc' hcrowded'

/-- An operation keeps a session within the limits exactly if it is cautious. -/
theorem withinLimits_step_iff (h : Reachable store limits session) (operation : Operation)
    (hwithin : session.registry.WithinLimits) :
    (session.step store operation).2.registry.WithinLimits ↔
      session.registry.Cautious operation := by
  have hsound := Registry.sound_of_reachable h
  by_cases hmove : ∃ id, operation = .setDefault id
  · obtain ⟨id, rfl⟩ := hmove
    by_cases htop : IsTop session.registry id
    · rw [step_setDefault htop]
      exact Registry.withinLimits_crown_iff hsound htop hwithin
    · obtain ⟨fault, hfault⟩ := (Registry.setDefault_allOrNothing id).error htop
      rw [step_snd, Operation.perform, registry_leaves_onRegistry_bind, leaves_of_error hfault]
      exact ⟨fun _ _ _ h => absurd h htop, fun _ => hwithin⟩
  · have hcautious : session.registry.Cautious operation := by
      cases operation with
      | setDefault id => exact absurd ⟨id, rfl⟩ hmove
      | _ => trivial
    refine iff_of_true ?_ hcautious
    rw [Registry.withinLimits_iff (Registry.sound_of_reachable (h.step operation))]
    intro id c' hc' hcrowded
    obtain ⟨c, hc, hcrowded⟩ := crowdsNone_step store hsound
      (fun id heq => hmove ⟨id, heq⟩) id c' hc' hcrowded
    exact (Registry.withinLimits_iff hsound).mp hwithin id c hc hcrowded

/-- A run is within the limits all the time exactly if every step of it is cautious: none takes the
default flag from a channel with more members than its limit. -/
theorem withinLimits_run_iff (store : Store) (limits : Limits) (operations : List Operation) :
    (∀ before, before <+: operations →
      ((start (.empty limits)).run store before).registry.WithinLimits) ↔
    ∀ before operation, before ++ [operation] <+: operations →
      ((start (.empty limits)).run store before).registry.Cautious operation := by
  have hstep (before : List Operation) (operation : Operation)
      (hwithin : ((start (.empty limits)).run store before).registry.WithinLimits) :
      ((start (.empty limits)).run store (before ++ [operation])).registry.WithinLimits ↔
        ((start (.empty limits)).run store before).registry.Cautious operation := by
    rw [run_append_singleton]
    exact withinLimits_step_iff (reachable_iff.mpr ⟨before, rfl⟩) operation hwithin
  constructor
  · intro hwithin before operation hbefore
    have hshorter : before <+: operations := (List.prefix_append _ _).trans hbefore
    exact (hstep before operation (hwithin before hshorter)).mp (hwithin _ hbefore)
  · intro hcautious before hbefore
    induction before using List.reverseRecOn with
    | nil => exact fun c hc => absurd hc List.not_mem_nil
    | append_singleton before operation ih =>
        have hshorter : before <+: operations := (List.prefix_append _ _).trans hbefore
        exact (hstep before operation (ih hshorter)).mpr (hcautious before operation hbefore)

/-- Two players are in a default channel for one.  Another channel becomes the default channel, and
the first has two members and a limit of one. -/
theorem not_withinLimits_after_move :
    ¬ ∀ operations : List Operation,
      ((start (.empty {})).run .none operations).registry.WithinLimits := by
  intro hwithin
  let narrow : Metadata :=
    { Metadata.preset with name := "A", flags := .default, capacity := .limited 1 }
  let operations : List Operation :=
    [.addChannel narrow, .addChannel .preset, .addPlayer (.guest "p" "m") 1,
      .addPlayer (.guest "q" "m") 2, .join ⟨1⟩ ⟨1⟩, .join ⟨1⟩ ⟨2⟩, .setDefault ⟨2⟩]
  let left : Channel :=
    { id := ⟨1⟩
      info := { narrow with flags := .none }
      members := [⟨1⟩, ⟨2⟩] }
  let registry := ((start (.empty {})).run .none operations).registry
  have hmem : left ∈ registry.channels.entries := by decide +kernel
  have hother : registry.defaultChannel.toOption ≠ some left := by decide +kernel
  have htwo : (2 : Nat) ≤ 1 :=
    hwithin operations left hmem (fun hdefault => hother (congrArg Except.toOption hdefault)) 1 rfl
  exact absurd htwo (by decide)

end Session

end ChannelServer
