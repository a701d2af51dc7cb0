import ChannelServer.Slots
import Mathlib.Data.List.Nodup

/-!
# Looking things up in slots

A container is a list, but nearly every statement about the registry reads it through `get?`.  This
file gives one equation per operation of the container for that view.  Operations that depend on
which of two equal ids comes first get a second equation, on the list itself, for containers whose
ids are distinct.

## Main results

* `get?_modify`, `get?_map`, `get?_erase`, `get?_append`: reading after a change.
* `ids_modify`, `ids_map`, `ids_append`: which ids are in use after a change.
* `nodup_ids_append`, `nodup_ids_erase`: distinct ids stay distinct.
* `entries_erase`, `entries_modify`: the list without one entity or with a change of it, if the
  ids are distinct.
* `modify_modify_eq_map`, `foldl_modify_eq_map`: changes of some entities as one change of all.
-/

namespace ChannelServer.Slots

variable {α κ : Type} [Identified α κ] [DecidableEq κ]

/-- The ids in use, in the order of the entities. -/
def ids (slots : Slots α) : List κ := slots.entries.map Identified.id

/-- One more entity at the end, whether there is room for it or not. -/
def append (slots : Slots α) (entry : α) : Slots α :=
  { slots with entries := slots.entries ++ [entry] }

theorem named_iff {id : κ} {entry : α} : named id entry = true ↔ Identified.id entry = id := by
  simp only [named, decide_eq_true_eq]

/-! ## Finding -/

theorem id_of_get? {slots : Slots α} {id : κ} {entry : α} (h : slots.get? id = some entry) :
    Identified.id entry = id :=
  named_iff.mp (List.find?_some h)

theorem mem_of_get? {slots : Slots α} {id : κ} {entry : α} (h : slots.get? id = some entry) :
    entry ∈ slots.entries :=
  List.mem_of_find?_eq_some h

theorem get?_eq_none {slots : Slots α} {id : κ} : slots.get? id = none ↔ id ∉ slots.ids := by
  simp only [get?, List.find?_eq_none, ids, List.mem_map, not_exists, not_and, named_iff]

theorem mem_ids_of_get? {slots : Slots α} {id : κ} {entry : α} (h : slots.get? id = some entry) :
    id ∈ slots.ids := by
  by_contra hid
  rw [get?_eq_none.mpr hid] at h
  cases h

/-- With distinct ids, every entity is found under its own id. -/
theorem get?_of_mem {slots : Slots α} (hids : slots.ids.Nodup) {entry : α}
    (h : entry ∈ slots.entries) : slots.get? (Identified.id entry) = some entry := by
  have hid : Identified.id entry ∈ slots.ids := List.mem_map_of_mem h
  cases hget : slots.get? (Identified.id entry) with
  | none => exact absurd hid (get?_eq_none.mp hget)
  | some found =>
      rw [List.inj_on_of_nodup_map hids (mem_of_get? hget) h (id_of_get? hget)]

theorem get?_eq_some_iff {slots : Slots α} (hids : slots.ids.Nodup) {id : κ} {entry : α} :
    slots.get? id = some entry ↔ entry ∈ slots.entries ∧ Identified.id entry = id := by
  constructor
  · exact fun h => ⟨mem_of_get? h, id_of_get? h⟩
  · rintro ⟨hmem, rfl⟩
    exact get?_of_mem hids hmem

/-- With distinct ids, a container is what its ids lead to. -/
theorem ext_get? {slots slots' : Slots α} (hcapacity : slots.capacity = slots'.capacity)
    (hsame : slots.ids = slots'.ids) (hids : slots.ids.Nodup)
    (hget : ∀ id, slots.get? id = slots'.get? id) : slots = slots' := by
  have hread {slots : Slots α} (hids : slots.ids.Nodup) :
      slots.ids.filterMap slots.get? = slots.entries := by
    have hcongr : slots.entries.filterMap (fun entry => slots.get? (Identified.id entry)) =
        slots.entries.filterMap some :=
      List.filterMap_congr fun entry hentry => get?_of_mem hids hentry
    rw [ids, List.filterMap_map]
    exact hcongr.trans List.filterMap_some
  have hentries : slots.entries = slots'.entries := by
    rw [← hread hids, ← hread (hsame ▸ hids), ← hsame]
    exact List.filterMap_congr fun id _ => hget id
  obtain ⟨capacity, entries⟩ := slots
  obtain ⟨capacity', entries'⟩ := slots'
  cases hcapacity
  cases hentries
  rfl

/-! ## Adding -/

theorem insert_eq (slots : Slots α) (entry : α) :
    slots.insert entry =
      if slots.isFull then .error (.slotsFull slots.capacity) else .ok (slots.append entry) := rfl

omit [DecidableEq κ] in
theorem ids_append (slots : Slots α) (entry : α) :
    (slots.append entry).ids = slots.ids ++ [Identified.id entry] := by
  simp only [ids, append, List.map_append, List.map_cons, List.map_nil]

theorem nodup_ids_append {slots : Slots α} (hids : slots.ids.Nodup) {entry : α}
    (hfree : slots.get? (Identified.id entry) = none) : (slots.append entry).ids.Nodup := by
  rw [ids_append]
  refine List.nodup_append.mpr ⟨hids, List.nodup_singleton _, fun a ha b hb heq => ?_⟩
  rw [heq, List.mem_singleton.mp hb] at ha
  exact get?_eq_none.mp hfree ha

theorem get?_append (slots : Slots α) (entry : α) (id : κ) :
    (slots.append entry).get? id =
      (slots.get? id).or (if Identified.id entry = id then some entry else none) := by
  simp only [get?, append, List.find?_append, List.find?_singleton, named, decide_eq_true_eq]

/-! ## Changing -/

private theorem find?_modifyFirst (id id' : κ) (f : α → α)
    (hf : ∀ entry, Identified.id (f entry) = Identified.id entry) (entries : List α) :
    (modifyFirst (named id) f entries).find? (named id') =
      if id' = id then (entries.find? (named id')).map f else entries.find? (named id') := by
  induction entries with
  | nil => simp [modifyFirst]
  | cons entry rest ih =>
      by_cases hentry : Identified.id entry = id
      · by_cases hid : id' = id
        · simp [modifyFirst, named, hentry, hid, hf]
        · have hne : ¬ id = id' := fun h => hid h.symm
          simp [modifyFirst, named, hentry, hid, hne, hf]
      · by_cases hfound : Identified.id entry = id'
        · have hid : ¬ id' = id := fun h => hentry (hfound.trans h)
          simp [modifyFirst, named, hfound, hid]
        · have hrest : (modifyFirst (named id) f (entry :: rest)).find? (named id') =
              (modifyFirst (named id) f rest).find? (named id') := by
            simp [modifyFirst, named, hentry, hfound]
          rw [hrest, ih, List.find?_cons_of_neg (by simp [named, hfound])]

/-- A change is seen under the id that was changed and nowhere else. -/
theorem get?_modify (slots : Slots α) (id id' : κ) (f : α → α)
    (hf : ∀ entry, Identified.id (f entry) = Identified.id entry) :
    (slots.modify id f).get? id' =
      if id' = id then (slots.get? id').map f else slots.get? id' :=
  find?_modifyFirst id id' f hf slots.entries

/-- A change of one entity leaves every entity where it is. -/
theorem exists_get?_modify {slots : Slots α} (id : κ) {id' : κ} {entry : α} (f : α → α)
    (hf : ∀ entry, Identified.id (f entry) = Identified.id entry)
    (h : slots.get? id' = some entry) : ∃ entry', (slots.modify id f).get? id' = some entry' := by
  rw [get?_modify _ _ _ f hf]
  split
  · exact ⟨f entry, by rw [h, Option.map_some]⟩
  · exact ⟨entry, h⟩

theorem mem_modify {slots : Slots α} {id : κ} {f : α → α} {entry : α}
    (h : entry ∈ (slots.modify id f).entries) :
    ∃ old ∈ slots.entries, entry = old ∨ entry = f old := by
  obtain ⟨capacity, entries⟩ := slots
  simp only [modify] at h ⊢
  induction entries with
  | nil => cases h
  | cons first rest ih =>
      rw [modifyFirst] at h
      split at h
      · rcases List.mem_cons.mp h with heq | hmem
        · exact ⟨first, List.mem_cons_self, .inr heq⟩
        · exact ⟨entry, List.mem_cons_of_mem _ hmem, .inl rfl⟩
      · rcases List.mem_cons.mp h with heq | hmem
        · exact ⟨first, List.mem_cons_self, .inl heq⟩
        · obtain ⟨old, hold, hentry⟩ := ih hmem
          exact ⟨old, List.mem_cons_of_mem _ hold, hentry⟩

theorem ids_modify (slots : Slots α) (id : κ) (f : α → α)
    (hf : ∀ entry, Identified.id (f entry) = Identified.id entry) :
    (slots.modify id f).ids = slots.ids := by
  obtain ⟨capacity, entries⟩ := slots
  simp only [ids, modify]
  induction entries with
  | nil => rfl
  | cons entry rest ih =>
      rw [modifyFirst]
      split
      · rw [List.map_cons, List.map_cons, hf]
      · rw [List.map_cons, List.map_cons, ih]

/-- Only what a change does to the entity that is there matters. -/
theorem modify_congr {slots : Slots α} {id : κ} {f g : α → α}
    (h : ∀ entry, slots.get? id = some entry → f entry = g entry) :
    slots.modify id f = slots.modify id g := by
  obtain ⟨capacity, entries⟩ := slots
  simp only [modify, mk.injEq, true_and]
  induction entries with
  | nil => rfl
  | cons entry rest ih =>
      rw [modifyFirst, modifyFirst]
      by_cases hentry : named id entry = true
      · rw [if_pos hentry, if_pos hentry, h entry (List.find?_cons_of_pos hentry)]
      · rw [if_neg hentry, if_neg hentry,
          ih fun other hother => h other ((List.find?_cons_of_neg hentry).trans hother)]

/-- A change that keeps the id of the entity that is there could as well keep all ids. -/
private theorem exists_modify_eq {slots : Slots α} {id : κ} {f : α → α}
    (hf : ∀ entry, slots.get? id = some entry → Identified.id (f entry) = Identified.id entry) :
    ∃ g : α → α, (∀ entry, Identified.id (g entry) = Identified.id entry) ∧
      (∀ entry, slots.get? id = some entry → g entry = f entry) ∧
      slots.modify id f = slots.modify id g := by
  classical
  refine ⟨fun entry => if slots.get? id = some entry then f entry else entry, ?_, ?_, ?_⟩
  · intro entry
    simp only
    split
    · exact hf entry ‹_›
    · rfl
  · exact fun entry h => if_pos h
  · exact modify_congr fun entry h => (if_pos h).symm

theorem get?_modify_found (slots : Slots α) (id id' : κ) (f : α → α)
    (hf : ∀ entry, slots.get? id = some entry → Identified.id (f entry) = Identified.id entry) :
    (slots.modify id f).get? id' =
      if id' = id then (slots.get? id').map f else slots.get? id' := by
  obtain ⟨g, hg, hagree, heq⟩ := exists_modify_eq hf
  rw [heq, get?_modify slots id id' g hg]
  split
  · subst id'
    cases h : slots.get? id with
    | none => rfl
    | some entry => rw [Option.map_some, Option.map_some, hagree entry h]
  · rfl

theorem ids_modify_found (slots : Slots α) (id : κ) (f : α → α)
    (hf : ∀ entry, slots.get? id = some entry → Identified.id (f entry) = Identified.id entry) :
    (slots.modify id f).ids = slots.ids := by
  obtain ⟨g, hg, -, heq⟩ := exists_modify_eq hf
  rw [heq, ids_modify slots id g hg]

/-- A change that leaves the entity as it is leaves the container as it is. -/
theorem modify_eq_self {slots : Slots α} {id : κ} {f : α → α}
    (h : ∀ entry, slots.get? id = some entry → f entry = entry) : slots.modify id f = slots := by
  rw [modify_congr (g := fun entry => entry) h]
  obtain ⟨capacity, entries⟩ := slots
  simp only [modify, mk.injEq, true_and]
  clear h
  induction entries with
  | nil => rfl
  | cons entry rest ih => rw [modifyFirst, ih, ite_self]

/-- Two changes of the same entity are one change. -/
theorem modify_modify (slots : Slots α) (id : κ) (f g : α → α)
    (hf : ∀ entry, Identified.id (f entry) = Identified.id entry) :
    (slots.modify id f).modify id g = slots.modify id fun entry => g (f entry) := by
  obtain ⟨capacity, entries⟩ := slots
  simp only [modify, mk.injEq, true_and]
  induction entries with
  | nil => rfl
  | cons entry rest ih =>
      by_cases hentry : named id entry = true
      · have hnamed : named id (f entry) = true := by
          rw [named_iff, hf]
          exact named_iff.mp hentry
        rw [modifyFirst, if_pos hentry, modifyFirst, if_pos hnamed, modifyFirst, if_pos hentry]
      · rw [modifyFirst, if_neg hentry, modifyFirst, if_neg hentry, modifyFirst, if_neg hentry, ih]

/-- With distinct ids, the change of one entity is a change of every entity with its id. -/
theorem entries_modify {slots : Slots α} (hids : slots.ids.Nodup) (id : κ) (f : α → α) :
    (slots.modify id f).entries =
      slots.entries.map fun entry => if Identified.id entry = id then f entry else entry := by
  obtain ⟨capacity, entries⟩ := slots
  simp only [ids, modify] at hids ⊢
  induction entries with
  | nil => rfl
  | cons entry rest ih =>
      rw [List.map_cons, List.nodup_cons] at hids
      rw [modifyFirst, List.map_cons]
      by_cases hentry : Identified.id entry = id
      · have hrest : ∀ other ∈ rest, (if Identified.id other = id then f other else other) =
            other := fun other hother => if_neg fun h => hids.1 (by
          rw [hentry, ← h]
          exact List.mem_map_of_mem hother)
        rw [if_pos (named_iff.mpr hentry), if_pos hentry, List.map_congr_left hrest, List.map_id']
      · rw [if_neg (fun h => hentry (named_iff.mp h)), if_neg hentry, ih hids.2]

/-- A change of the last entity, if its id is not in use before. -/
theorem modify_append_self {slots : Slots α} {entry : α} {id : κ} (hid : Identified.id entry = id)
    (h : slots.get? id = none) (f : α → α) :
    (slots.append entry).modify id f = slots.append (f entry) := by
  obtain ⟨capacity, entries⟩ := slots
  simp only [get?, List.find?_eq_none] at h
  simp only [modify, append, mk.injEq, true_and]
  induction entries with
  | nil => exact if_pos (named_iff.mpr hid)
  | cons first rest ih =>
      obtain ⟨hfirst, hrest⟩ := List.forall_mem_cons.mp h
      rw [List.cons_append, modifyFirst, if_neg hfirst, ih hrest, List.cons_append]

/-- A change of another entity than the last. -/
theorem modify_append_of_ne {entry : α} {id : κ} (h : Identified.id entry ≠ id) (slots : Slots α)
    (f : α → α) : (slots.append entry).modify id f = (slots.modify id f).append entry := by
  obtain ⟨capacity, entries⟩ := slots
  simp only [modify, append, mk.injEq, true_and]
  induction entries with
  | nil => exact if_neg fun hentry => h (named_iff.mp hentry)
  | cons first rest ih =>
      rw [List.cons_append, modifyFirst, modifyFirst, ih]
      split <;> rfl

/-- What keeps all ids keeps who is named. -/
private theorem named_comp (id : κ) {f : α → α}
    (hf : ∀ entry, Identified.id (f entry) = Identified.id entry) :
    named (α := α) id ∘ f = named id := by
  funext entry
  simp only [Function.comp, named, hf]

theorem get?_map (slots : Slots α) (id : κ) (f : α → α)
    (hf : ∀ entry, Identified.id (f entry) = Identified.id entry) :
    (slots.map f).get? id = (slots.get? id).map f := by
  simp only [get?, map, List.find?_map, named_comp id hf]

theorem map_map (slots : Slots α) (f g : α → α) :
    (slots.map f).map g = slots.map fun entry => g (f entry) := by
  simp only [map, List.map_map, Function.comp_def]

theorem map_congr {slots : Slots α} {f g : α → α} (h : ∀ entry ∈ slots.entries, f entry = g entry) :
    slots.map f = slots.map g := by
  simp only [map, List.map_congr_left h]

theorem map_eq_self {slots : Slots α} {f : α → α} (h : ∀ entry ∈ slots.entries, f entry = entry) :
    slots.map f = slots := by
  rw [map_congr h, map, List.map_id']

/-- With distinct ids, the change of one entity can be seen as a change of all. -/
theorem modify_eq_map {slots : Slots α} (hids : slots.ids.Nodup) (id : κ) (f : α → α) :
    slots.modify id f =
      slots.map fun entry => if Identified.id entry = id then f entry else entry :=
  congrArg (Slots.mk slots.capacity) (entries_modify hids id f)

/-- Changes of two entities, one after the other, as one change of all. -/
theorem modify_modify_eq_map {slots : Slots α} (hids : slots.ids.Nodup) {id id' : κ}
    (hne : id ≠ id') (f g : α → α)
    (hf : ∀ entry, Identified.id (f entry) = Identified.id entry) :
    (slots.modify id f).modify id' g = slots.map fun entry =>
      if Identified.id entry = id' then g entry
      else if Identified.id entry = id then f entry else entry := by
  have hids' : (slots.modify id f).ids.Nodup := by
    rw [ids_modify slots id f hf]
    exact hids
  rw [modify_eq_map hids', modify_eq_map hids, map_map]
  refine map_congr fun entry _ => ?_
  by_cases hentry : Identified.id entry = id
  · rw [if_pos hentry, hf, hentry, if_neg hne, if_neg hne]
  · rw [if_neg hentry]

/-- One change of several entities as a change of all.  An entity that is named more than once is
changed more than once, which must not make a difference. -/
theorem foldl_modify_eq_map {slots : Slots α} (hids : slots.ids.Nodup) (changed : List κ)
    (f : α → α) (hf : ∀ entry, Identified.id (f entry) = Identified.id entry)
    (hagain : ∀ entry, f (f entry) = f entry) :
    changed.foldl (fun slots id => slots.modify id f) slots =
      slots.map fun entry => if Identified.id entry ∈ changed then f entry else entry := by
  induction changed generalizing slots with
  | nil => simp [map]
  | cons id rest ih =>
      have hids' : (slots.modify id f).ids.Nodup := by
        rw [ids_modify slots id f hf]
        exact hids
      rw [List.foldl_cons, ih hids', modify_eq_map hids, map_map]
      refine map_congr fun entry _ => ?_
      by_cases hentry : Identified.id entry = id
      · by_cases hrest : id ∈ rest <;> simp [hentry, hf, hrest, hagain]
      · simp [hentry]

omit [DecidableEq κ] in
theorem ids_map (slots : Slots α) (f : α → α)
    (hf : ∀ entry, Identified.id (f entry) = Identified.id entry) :
    (slots.map f).ids = slots.ids := by
  simp only [ids, map, List.map_map]
  exact List.map_congr_left fun entry _ => hf entry

/-! ## Taking out -/

/-- With distinct ids, taking one out leaves every entity that has another id. -/
theorem entries_erase {slots : Slots α} (hids : slots.ids.Nodup) (id : κ) :
    (slots.erase id).entries = slots.entries.filter (Identified.id · ≠ id) := by
  obtain ⟨capacity, entries⟩ := slots
  simp only [ids, erase] at hids ⊢
  induction entries with
  | nil => rfl
  | cons entry rest ih =>
      rw [List.map_cons, List.nodup_cons] at hids
      by_cases hentry : Identified.id entry = id
      · have hrest : ∀ other ∈ rest, Identified.id other ≠ id := fun other hother h =>
          hids.1 (by rw [hentry, ← h]; exact List.mem_map_of_mem hother)
        rw [List.eraseP_cons_of_pos (named_iff.mpr hentry),
          List.filter_cons_of_neg (by simp [hentry])]
        exact (List.filter_eq_self.mpr fun other hother => by simp [hrest other hother]).symm
      · rw [List.eraseP_cons_of_neg (fun h => hentry (named_iff.mp h)),
          List.filter_cons_of_pos (by simp [hentry]), ih hids.2]

/-- What becomes of an entity does not decide whether it is taken out. -/
theorem erase_map (slots : Slots α) (id : κ) (f : α → α)
    (hf : ∀ entry, Identified.id (f entry) = Identified.id entry) :
    (slots.map f).erase id = (slots.erase id).map f := by
  simp only [erase, map, List.eraseP_map, named_comp id hf]

theorem nodup_ids_erase {slots : Slots α} (hids : slots.ids.Nodup) (id : κ) :
    (slots.erase id).ids.Nodup :=
  (List.eraseP_sublist.map _).nodup hids

/-- What has another id stays, also in a container whose ids are not distinct. -/
theorem get?_erase_ne (slots : Slots α) {id id' : κ} (h : id' ≠ id) :
    (slots.erase id).get? id' = slots.get? id' := by
  obtain ⟨capacity, entries⟩ := slots
  simp only [get?, erase]
  induction entries with
  | nil => rfl
  | cons entry rest ih =>
      by_cases hentry : Identified.id entry = id
      · have hne : ¬ named id' entry = true := fun hid =>
          h ((named_iff.mp hid).symm.trans hentry)
        rw [List.eraseP_cons_of_pos (named_iff.mpr hentry), List.find?_cons_of_neg hne]
      · rw [List.eraseP_cons_of_neg (fun hid => hentry (named_iff.mp hid)), List.find?_cons,
          List.find?_cons, ih]

theorem get?_erase {slots : Slots α} (hids : slots.ids.Nodup) (id id' : κ) :
    (slots.erase id).get? id' = if id' = id then none else slots.get? id' := by
  by_cases h : id' = id
  · rw [if_pos h, get?_eq_none, ids, entries_erase hids]
    simp [h]
  · rw [if_neg h, get?_erase_ne slots h]

end ChannelServer.Slots
