import ChannelServer.Proofs.Effect.Basic
import Mathlib.Data.List.Perm.Subperm

/-!
# The number of a new entity

Channels, players and bans have words for ids, and a new one gets the smallest positive number that
is not in use.  The numbers in use may be anything: an import brings its own, zero and the last word
but one among them.  So the search sorts them and counts up to the first gap.

The words are of different width, and the search counts without bound.  `Numbered` says what the
three kinds of ids have in common, and `Next` what the search looks for; that a number fits into the
word is part of it.

An action that puts a new entity in gives the next id away, or it is refused.  `GivesNext` says so,
and whatever is to be said of channels, players and bans that are added is said of it.

## Main results

* `smallestFree?_spec`: what the search finds.
* `Slots.Next.smallestFree?`, `Slots.Exhausted.smallestFree?`: the search in a container.
* `Slots.exists_next_of_length`: with fewer entities than numbers there is a free one.
* `Registry.GivesNext.cases`: an action that gives the next id away has done so or is refused.
-/

namespace ChannelServer

/-! ## The search -/

/-- In an ascending list, everything from the candidate up to the first gap is there and the gap
is not. -/
theorem firstGap_spec (candidate : Nat) {used : List Nat} (hsorted : used.Pairwise (· ≤ ·)) :
    candidate ≤ firstGap candidate used ∧ firstGap candidate used ∉ used ∧
      ∀ id, candidate ≤ id → id < firstGap candidate used → id ∈ used := by
  induction used generalizing candidate with
  | nil =>
      refine ⟨Nat.le_refl _, List.not_mem_nil, fun id hle hlt => ?_⟩
      exact absurd hlt (Nat.not_lt.mpr hle)
  | cons id rest ih =>
      obtain ⟨hle, hrest⟩ := List.pairwise_cons.mp hsorted
      rw [firstGap]
      split
      · subst id
        obtain ⟨hge, hgap, hall⟩ := ih (candidate + 1) hrest
        refine ⟨by omega, ?_, fun id hcandidate hlt => ?_⟩
        · rw [List.mem_cons]
          rintro (heq | hmem)
          · omega
          · exact hgap hmem
        · by_cases heq : id = candidate
          · exact heq ▸ List.mem_cons_self
          · exact List.mem_cons_of_mem _ (hall id (by omega) hlt)
      · split
        · refine ⟨Nat.le_refl _, fun hmem => ?_, fun id' hcandidate hlt => by omega⟩
          rcases List.mem_cons.mp hmem with heq | hmem
          · omega
          · have := hle _ hmem
            omega
        · obtain ⟨hge, hgap, hall⟩ := ih candidate hrest
          refine ⟨hge, ?_, fun id' hcandidate hlt =>
            List.mem_cons_of_mem _ (hall id' hcandidate hlt)⟩
          rw [List.mem_cons]
          rintro (heq | hmem)
          · omega
          · exact hgap hmem

private theorem sorted_mergeSort (used : List Nat) :
    (used.mergeSort (· ≤ ·)).Pairwise (· ≤ ·) := by
  have := @List.pairwise_mergeSort _ (fun a b : Nat => decide (a ≤ b))
    (fun a b c hab hbc => by simp at *; omega) (fun a b => by simp; omega) used
  simpa using this

/-- The smallest free number is positive, within the maximum and not in use. -/
theorem smallestFree?_spec {used : List Nat} {max free : Nat}
    (h : smallestFree? used max = some free) :
    1 ≤ free ∧ free ≤ max ∧ free ∉ used ∧ ∀ id, 1 ≤ id → id < free → id ∈ used := by
  obtain ⟨hge, hgap, hall⟩ := firstGap_spec 1 (sorted_mergeSort used)
  unfold smallestFree? at h
  simp only at h
  split at h
  · cases h
    rename_i hmax
    refine ⟨hge, hmax, fun hmem => hgap (List.mem_mergeSort.mpr hmem), fun id hid hlt => ?_⟩
    exact List.mem_mergeSort.mp (hall id hid hlt)
  · cases h

/-- There is only one smallest free number. -/
theorem smallestFree?_eq {used : List Nat} {free : Nat} (hpos : 1 ≤ free) (hfree : free ∉ used)
    (hbelow : ∀ id, 1 ≤ id → id < free → id ∈ used) (max : Nat) :
    smallestFree? used max = if free ≤ max then some free else none := by
  obtain ⟨hge, hgap, hall⟩ := firstGap_spec 1 (sorted_mergeSort used)
  have hsame : firstGap 1 (used.mergeSort (· ≤ ·)) = free := by
    rcases Nat.lt_trichotomy (firstGap 1 (used.mergeSort (· ≤ ·))) free with hlt | heq | hgt
    · exact absurd (List.mem_mergeSort.mpr (hbelow _ hge hlt)) hgap
    · exact heq
    · exact absurd (List.mem_mergeSort.mp (hall free hpos hgt)) hfree
  rw [smallestFree?, hsame]

/-- Where the search finds nothing, every number is in use. -/
theorem mem_of_smallestFree?_eq_none {used : List Nat} {max id : Nat}
    (h : smallestFree? used max = none) (hpos : 1 ≤ id) (hmax : id ≤ max) : id ∈ used := by
  obtain ⟨-, -, hall⟩ := firstGap_spec 1 (sorted_mergeSort used)
  unfold smallestFree? at h
  simp only at h
  split at h
  · cases h
  · rename_i hbeyond
    exact List.mem_mergeSort.mp (hall id hpos (by omega))

/-! ## Words as ids -/

/-- Ids that are words, of which some numbers are given to new entities. -/
class Numbered (κ : Type) where
  number : κ → Nat
  ofNumber : Nat → κ
  /-- The largest number that a new entity may get. -/
  largest : Nat
  number_ofNumber : ∀ {n}, n ≤ largest → number (ofNumber n) = n
  ofNumber_number : ∀ id, ofNumber (number id) = id

namespace Numbered

instance : Numbered ChannelId where
  number id := id.value.toNat
  ofNumber n := ⟨UInt32.ofNat n⟩
  largest := Registry.maxChannelId
  number_ofNumber h := by
    rw [Registry.maxChannelId] at h
    exact UInt32.toNat_ofNat_of_lt' (by simp only [UInt32.size]; omega)
  ofNumber_number _ := congrArg ChannelId.mk UInt32.ofNat_toNat

instance : Numbered PlayerId where
  number id := id.value.toNat
  ofNumber n := ⟨UInt32.ofNat n⟩
  largest := Registry.maxPlayerId
  number_ofNumber h := by
    rw [Registry.maxPlayerId] at h
    exact UInt32.toNat_ofNat_of_lt' (by simp only [UInt32.size]; omega)
  ofNumber_number _ := congrArg PlayerId.mk UInt32.ofNat_toNat

instance : Numbered BanId where
  number id := id.value.toNat
  ofNumber n := ⟨UInt16.ofNat n⟩
  largest := Registry.maxBans
  number_ofNumber h := by
    rw [Registry.maxBans] at h
    exact UInt16.toNat_ofNat_of_lt' (by simp only [UInt16.size]; omega)
  ofNumber_number _ := congrArg BanId.mk UInt16.ofNat_toNat

variable {κ : Type} [Numbered κ]

theorem number_injective : Function.Injective (number : κ → Nat) := fun id id' h => by
  rw [← ofNumber_number id, h, ofNumber_number]

end Numbered

/-! ## The next id -/

namespace Slots

open Numbered (number ofNumber largest number_ofNumber ofNumber_number number_injective)

variable {α κ : Type} [Identified α κ] [Numbered κ] {slots : Slots α} {id : κ}

/-- The numbers in use, in the order of the entities. -/
def numbers (slots : Slots α) : List Nat :=
  slots.entries.map fun entry => number (Identified.id entry)

theorem mem_numbers : number id ∈ slots.numbers ↔ id ∈ slots.ids := by
  simp only [numbers, ids, List.mem_map, number_injective.eq_iff]

/-- The id is free, and it is the smallest that a new entity may get. -/
structure Next (slots : Slots α) (id : κ) : Prop where
  positive : 1 ≤ number id
  bounded : number id ≤ largest κ
  free : id ∉ slots.ids
  least : ∀ other : κ, 1 ≤ number other → number other < number id → other ∈ slots.ids

theorem Next.get?_eq_none [DecidableEq κ] (h : slots.Next id) : slots.get? id = none :=
  Slots.get?_eq_none.mpr h.free

/-- No id is left for a new entity. -/
def Exhausted (slots : Slots α) : Prop :=
  ∀ id : κ, 1 ≤ number id → number id ≤ largest κ → id ∈ slots.ids

/-- The search finds the next id. -/
theorem Next.smallestFree? (h : slots.Next id) :
    smallestFree? slots.numbers (largest κ) = some (number id) := by
  rw [smallestFree?_eq h.positive (mt mem_numbers.mp h.free) (fun n hpos hlt => ?_),
    if_pos h.bounded]
  have hnumber : number (ofNumber n : κ) = n :=
    number_ofNumber (Nat.le_trans (Nat.le_of_lt hlt) h.bounded)
  have hmem : (ofNumber n : κ) ∈ slots.ids := h.least _ (by omega) (by omega)
  exact hnumber ▸ mem_numbers.mpr hmem

theorem Exhausted.smallestFree? (h : slots.Exhausted) :
    smallestFree? slots.numbers (largest κ) = none := by
  cases hfree : ChannelServer.smallestFree? slots.numbers (largest κ) with
  | none => rfl
  | some free =>
      obtain ⟨hpos, hmax, hunused, -⟩ := smallestFree?_spec hfree
      have hnumber : number (ofNumber free : κ) = free := number_ofNumber hmax
      have hmem : (ofNumber free : κ) ∈ slots.ids := h _ (by omega) (by omega)
      exact absurd (hnumber ▸ mem_numbers.mpr hmem) hunused

theorem exists_next_or_exhausted (slots : Slots α) : (∃ id, slots.Next id) ∨ slots.Exhausted := by
  cases hfree : smallestFree? slots.numbers (largest κ) with
  | none =>
      refine .inr fun id hpos hmax => mem_numbers.mp ?_
      exact mem_of_smallestFree?_eq_none hfree hpos hmax
  | some free =>
      obtain ⟨hpos, hmax, hunused, hall⟩ := smallestFree?_spec hfree
      have hnumber : number (ofNumber free : κ) = free := number_ofNumber hmax
      refine .inl ⟨ofNumber free, ?_, ?_, ?_, ?_⟩
      · omega
      · omega
      · exact fun hmem => hunused (hnumber ▸ mem_numbers.mpr hmem)
      · exact fun other hother hlt => mem_numbers.mp (hall _ hother (by omega))

/-- There is a next id as soon as some id is free. -/
theorem exists_next_iff :
    (∃ id, slots.Next id) ↔ ∃ id : κ, 1 ≤ number id ∧ number id ≤ largest κ ∧ id ∉ slots.ids := by
  constructor
  · rintro ⟨id, h⟩
    exact ⟨id, h.positive, h.bounded, h.free⟩
  · rintro ⟨id, hpos, hmax, hfree⟩
    rcases slots.exists_next_or_exhausted with hnext | hexhausted
    · exact hnext
    · exact absurd (hexhausted id hpos hmax) hfree

/-- There are not enough entities to use up the ids. -/
theorem exists_next_of_length (h : slots.entries.length < largest κ) : ∃ id, slots.Next id := by
  rcases slots.exists_next_or_exhausted with hnext | hexhausted
  · exact hnext
  · have hall : List.range' 1 (largest κ) ⊆ slots.numbers := by
      intro n hn
      rw [List.mem_range'_1] at hn
      have hnumber : number (ofNumber n : κ) = n := number_ofNumber (by omega)
      exact hnumber ▸ mem_numbers.mpr (hexhausted _ (by omega) (by omega))
    have hdistinct : (List.range' 1 (largest κ)).Nodup := List.nodup_range'
    have hlength := (hdistinct.subperm hall).length_le
    rw [List.length_range', numbers, List.length_map] at hlength
    omega

end Slots

/-! ## Giving the next id away -/

namespace Registry

variable {α κ : Type} [Identified α κ] [Numbered κ]

/-- An action that answers with the next id of a container, if nothing else speaks against it.  If
no id is left, it is refused. -/
structure GivesNext (action : Action κ) (registry : Registry) (slots : Slots α)
    (condition : κ → Prop) (after : κ → Registry) : Prop where
  next : ∀ {id}, slots.Next id → AllOrNothing action registry (condition id) id (after id)
  exhausted : slots.Exhausted → Refused action registry

namespace GivesNext

variable {action : Action κ} {registry : Registry} {slots : Slots α} {condition : κ → Prop}
  {after : κ → Registry}

theorem cases (h : GivesNext action registry slots condition after) :
    (∃ id, slots.Next id ∧ condition id ∧ action registry = .ok id (after id)) ∨
      Refused action registry := by
  rcases slots.exists_next_or_exhausted with ⟨id, hnext⟩ | hexhausted
  · rcases (h.next hnext).cases with ⟨hcondition, hok⟩ | ⟨-, hrefused⟩
    · exact .inl ⟨id, hnext, hcondition, hok⟩
    · exact .inr hrefused
  · exact .inr (h.exhausted hexhausted)

theorem settles {R : Registry → Registry → Prop}
    (h : GivesNext action registry slots condition after)
    (hafter : ∀ {id}, slots.Next id → condition id → R registry (after id)) :
    Settles R action registry := by
  obtain ⟨id, hnext, hcondition, hok⟩ | hrefused := h.cases
  · exact .inl ⟨id, after id, hok, hafter hnext hcondition⟩
  · exact .inr hrefused

end GivesNext

end Registry

end ChannelServer
