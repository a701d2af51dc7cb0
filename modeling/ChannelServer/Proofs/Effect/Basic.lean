import ChannelServer.Operation
import ChannelServer.Proofs.Flags
import ChannelServer.Proofs.Running
import ChannelServer.Proofs.Slots

/-!
# What an operation does, and when

The operations on the registry check everything before they change anything.  So each of them is
described by a condition, the answer it gives under the condition and the registry it leaves then;
without the condition it fails and the registry is the one from before.  `AllOrNothing` says this
of an action; the modules beside this one say it of every operation.

Nothing here assumes that the registry is well formed.

## Main results

* `defaultChannel_ok`, `defaultChannel_error`: the default channel is a top channel with the flag.
* `Refused.ask_bind`, `Refused.require_bind`: a statement that fails needs no further look, so a
  refusal is shown by assuming that every check before the last one passes.
* `AllOrNothing.ask_bind`, `AllOrNothing.of_slot`: a question that is answered does not matter, and
  what takes a slot needs one.
-/

namespace ChannelServer

namespace Registry

variable {registry : Registry}

/-! ## Questions -/

theorem channel_eq_ok {id : ChannelId} {c : Channel} :
    registry.channel id = .ok c ↔ registry.channels.get? id = some c := by
  unfold channel
  cases registry.channels.get? id <;> simp

theorem channel_eq_error {id : ChannelId} (h : registry.channels.get? id = none) :
    registry.channel id = .error (.missing (.channel id)) := by
  simp only [channel, h]

theorem player_eq_ok {id : PlayerId} {p : Player} :
    registry.player id = .ok p ↔ registry.players.get? id = some p := by
  unfold player
  cases registry.players.get? id <;> simp

theorem player_eq_error {id : PlayerId} (h : registry.players.get? id = none) :
    registry.player id = .error (.missing (.player id)) := by
  simp only [player, h]

theorem updateChannel_ok {id : ChannelId} {c : Channel} (f : Channel → Channel)
    (h : registry.channels.get? id = some c) :
    updateChannel id f registry =
      .ok () { registry with channels := registry.channels.modify id f } := by
  simp [updateChannel, channel_eq_ok.mpr h]

/-- Some top channel has the default flag. -/
def HasDefault (registry : Registry) : Prop :=
  ∃ c ∈ registry.channels.entries, c.parent = none ∧ c.info.flags.has .default = true

theorem isTop_iff {c : Channel} : c.isTop = true ↔ c.parent = none := by
  simp [Channel.isTop]

theorem defaultChannel_ok {d : Channel} (h : registry.defaultChannel = .ok d) :
    d ∈ registry.channels.entries ∧ d.parent = none ∧ d.info.flags.has .default = true := by
  unfold defaultChannel at h
  split at h
  · rename_i found hfound
    cases h
    have hflags := List.find?_some hfound
    rw [Bool.and_eq_true, isTop_iff] at hflags
    exact ⟨List.mem_of_find?_eq_some hfound, hflags⟩
  · cases h

theorem defaultChannel_error (h : ¬ registry.HasDefault) :
    registry.defaultChannel = .error (.missing .defaultChannel) := by
  cases hdefault : registry.defaultChannel with
  | ok d =>
      obtain ⟨hmem, htop⟩ := defaultChannel_ok hdefault
      exact absurd ⟨d, hmem, htop⟩ h
  | error e =>
      unfold defaultChannel at hdefault
      split at hdefault
      · cases hdefault
      · exact hdefault.symm

theorem exists_defaultChannel (h : registry.HasDefault) : ∃ d, registry.defaultChannel = .ok d := by
  cases hdefault : registry.defaultChannel with
  | ok d => exact ⟨d, rfl⟩
  | error e =>
      obtain ⟨c, hmem, htop, hflag⟩ := h
      unfold defaultChannel at hdefault
      split at hdefault
      · cases hdefault
      · rename_i hnone
        have := List.find?_eq_none.mp hnone c hmem
        simp [isTop_iff.mpr htop, hflag] at this

/-! ## All or nothing -/

/-- The action fails and leaves the registry as it was. -/
def Refused {α : Type} (action : Action α) (registry : Registry) : Prop :=
  ∃ fault, action registry = .error fault registry

namespace Refused

variable {α β : Type}

theorem bind {action : Action α} {f : α → Action β} (h : Refused action registry) :
    Refused (action >>= f) registry := by
  obtain ⟨fault, hfault⟩ := h
  exact ⟨fault, by rw [bind_apply, hfault]⟩

/-- A question that has no answer refuses the action, so only the rest is to be looked at. -/
theorem ask_bind {question : Registry → Except Fault α} {f : α → Action β}
    (h : ∀ answer, question registry = .ok answer → Refused (f answer) registry) :
    Refused (ask question >>= f) registry := by
  cases hanswer : question registry with
  | ok answer =>
      obtain ⟨fault, hfault⟩ := h answer hanswer
      exact ⟨fault, by rw [bind_apply, ask_apply, hanswer, ← hfault]⟩
  | error fault => exact ⟨fault, by rw [bind_apply, ask_apply, hanswer]⟩

/-- A condition that does not hold refuses the action, so only the rest is to be looked at. -/
theorem require_bind {condition : Bool} {fault : Fault} {f : Unit → Action β}
    (h : condition = true → Refused (f ()) registry) :
    Refused (require condition fault >>= f) registry := by
  cases hcondition : condition with
  | true =>
      obtain ⟨fault', hfault⟩ := h hcondition
      exact ⟨fault', by rw [bind_apply, require_apply, if_pos rfl, ← hfault]⟩
  | false => exact ⟨fault, by simp⟩

theorem leaves_eq {action : Action α} (h : Refused action registry) :
    leaves action registry = registry := by
  obtain ⟨fault, hfault⟩ := h
  exact leaves_of_error hfault

theorem updateChannel_bind {id : ChannelId} {f : Channel → Channel} {g : Unit → Action β}
    (h : registry.channels.get? id = none) : Refused (updateChannel id f >>= g) registry :=
  bind ⟨.missing (.channel id), by simp [updateChannel, channel_eq_error h]⟩

end Refused

/-- The action succeeds exactly under a condition, with a certain answer and a certain registry
after it.  Otherwise it fails and leaves the registry as it was. -/
structure AllOrNothing {α : Type} (action : Action α) (registry : Registry) (condition : Prop)
    (answer : α) (after : Registry) : Prop where
  ok : condition → action registry = .ok answer after
  error : ¬ condition → Refused action registry

namespace AllOrNothing

variable {α : Type} {action : Action α} {condition : Prop} {answer : α} {after : Registry}

theorem cases (h : AllOrNothing action registry condition answer after) :
    (condition ∧ action registry = .ok answer after) ∨
      (¬ condition ∧ Refused action registry) := by
  by_cases hcondition : condition
  · exact .inl ⟨hcondition, h.ok hcondition⟩
  · exact .inr ⟨hcondition, h.error hcondition⟩

/-- The condition and the registry after can be said in other words. -/
theorem congr (h : AllOrNothing action registry condition answer after) {condition' : Prop}
    {after' : Registry} (hcondition : condition' ↔ condition) (hafter : after' = after) :
    AllOrNothing action registry condition' answer after' where
  ok h' := hafter ▸ h.ok (hcondition.mp h')
  error h' := h.error fun hold => h' (hcondition.mpr hold)

/-- A question that has an answer does not matter. -/
theorem ask_bind {β : Type} {question : Registry → Except Fault β} {f : β → Action α} {b : β}
    (hanswer : question registry = .ok b)
    (h : AllOrNothing (f b) registry condition answer after) :
    AllOrNothing (ask question >>= f) registry condition answer after := by
  have hrest : (ask question >>= f) registry = f b registry := by
    rw [bind_apply, ask_apply, hanswer]
  rcases h with ⟨hok, herror⟩
  refine ⟨fun hcondition => hrest.trans (hok hcondition), fun hnot => ?_⟩
  obtain ⟨fault, hfault⟩ := herror hnot
  exact ⟨fault, hrest.trans hfault⟩

/-- What takes a slot succeeds if one is left. -/
theorem of_slot {β κ : Type} [Identified β κ] {slots : Slots β}
    (h : action registry =
      if slots.isFull then .error (.slotsFull slots.capacity) registry else .ok answer after) :
    AllOrNothing action registry (slots.entries.length < slots.capacity) answer after where
  ok hroom := by
    have hfull : slots.isFull = false := by simp [Slots.isFull, Nat.not_le.mpr hroom]
    rw [h, hfull, if_neg Bool.false_ne_true]
  error hnot := by
    have hfull : slots.isFull = true := by simpa [Slots.isFull] using hnot
    exact ⟨_, by rw [h, hfull, if_pos rfl]⟩

/-- If the registry before and the one after are related under the condition, the action settles. -/
theorem settles {R : Registry → Registry → Prop}
    (h : AllOrNothing action registry condition answer after)
    (hafter : condition → R registry after) : Settles R action registry := by
  obtain ⟨hcondition, hok⟩ | ⟨-, hrefused⟩ := h.cases
  · exact .inl ⟨answer, after, hok, hafter hcondition⟩
  · exact .inr hrefused

end AllOrNothing

end Registry

end ChannelServer
