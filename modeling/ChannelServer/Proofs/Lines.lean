import ChannelServer.Proofs.Default
import ChannelServer.Proofs.Protection

/-!
# The lines of the channel tree

The tree goes through the top channels in the order of the registry, and from each of them through
the list of its subchannels.  A subchannel is only reached by way of the list of its parent, and
what is on a list without being there is left out without a word.  That every channel has its line,
and no channel two, is therefore a matter of the forest: a list names the channels that name its
channel as the parent, each once, and nothing else.

## Main results

* `perm_listed`: the order of the tree is an order of all channels.
* `tree_eq_map`, `outline_eq`: the lines, and where they stand.
* `filter_isDefault_tree`: who is marked as the default channel.
* `tree_of_reachable`: the lines in every reachable session.
-/

namespace ChannelServer

/-- With all of them there, the entities with some ids have these ids. -/
theorem Slots.map_id_filterMap_get? {α κ : Type} [Identified α κ] [DecidableEq κ] {slots : Slots α}
    {ids : List κ} (h : ∀ id ∈ ids, ∃ entry, slots.get? id = some entry) :
    (ids.filterMap slots.get?).map Identified.id = ids := by
  induction ids with
  | nil => rfl
  | cons id ids ih =>
      obtain ⟨⟨entry, hentry⟩, hrest⟩ := List.forall_mem_cons.mp h
      rw [List.filterMap_cons_some hentry, List.map_cons, ih hrest, Slots.id_of_get? hentry]

/-- The line of a channel where it stands in the tree. -/
def Channel.ownLine (c : Channel) : TreeLine := c.line (if c.isTop then 0 else 1)

namespace Registry

variable {registry : Registry}

/-- The top channels in the order of the registry. -/
def tops (registry : Registry) : List Channel := registry.channels.entries.filter (·.isTop)

/-- The subchannels of a channel in the order of its list. -/
def childrenOn (registry : Registry) (c : Channel) : List Channel :=
  c.subchannels.filterMap registry.channels.get?

/-- The channels in the order of the tree. -/
def listed (registry : Registry) : List Channel :=
  registry.tops.flatMap fun top => top :: registry.childrenOn top

namespace Forest

variable (h : Forest registry)
include h

theorem mem_tops {c : Channel} :
    c ∈ registry.tops ↔ registry.channels.get? c.id = some c ∧ c.parent = none := by
  rw [tops, List.mem_filter, isTop_iff]
  exact and_congr_left fun _ => ⟨Slots.get?_of_mem h.distinct, Slots.mem_of_get?⟩

theorem ids_childrenOn {c : Channel} (hc : registry.channels.get? c.id = some c) :
    (registry.childrenOn c).map (·.id) = c.subchannels :=
  Slots.map_id_filterMap_get? (h.found hc)

theorem parent_of_mem_childrenOn {c d : Channel} (hc : registry.channels.get? c.id = some c)
    (hd : d ∈ registry.childrenOn c) :
    registry.channels.get? d.id = some d ∧ d.parent = some c.id := by
  obtain ⟨child, hmem, hfound⟩ := List.mem_filterMap.mp hd
  have hid : d.id = child := Slots.id_of_get? hfound
  exact ⟨hid ▸ hfound, h.parent_of_mem hc hmem hfound⟩

/-- Whoever is below a channel is among its children. -/
theorem mem_childrenOn {c d : Channel} (hc : registry.channels.get? c.id = some c)
    (hd : registry.channels.get? d.id = some d) (hparent : d.parent = some c.id) :
    d ∈ registry.childrenOn c :=
  List.mem_filterMap.mpr ⟨d.id, (h.mem_subchannels_iff hc).mpr ⟨d, hd, hparent⟩, hd⟩

/-! ## Every channel once -/

theorem mem_listed {c : Channel} : c ∈ registry.listed ↔ c ∈ registry.channels.entries := by
  rw [listed, List.mem_flatMap]
  constructor
  · rintro ⟨top, htop, hc⟩
    have hfound := (h.mem_tops.mp htop).1
    rcases List.mem_cons.mp hc with rfl | hc
    · exact Slots.mem_of_get? hfound
    · exact Slots.mem_of_get? (h.parent_of_mem_childrenOn hfound hc).1
  · intro hc
    have hfound : registry.channels.get? c.id = some c := Slots.get?_of_mem h.distinct hc
    cases hparent : c.parent with
    | none => exact ⟨c, h.mem_tops.mpr ⟨hfound, hparent⟩, List.mem_cons_self⟩
    | some parent =>
        obtain ⟨p, hp, -⟩ := (h.parent_iff hfound parent).mp hparent
        have hid : p.id = parent := Slots.id_of_get? hp
        subst hid
        refine ⟨p, h.mem_tops.mpr ⟨hp, h.parent_top hfound hparent hp⟩, ?_⟩
        exact List.mem_cons_of_mem _ (h.mem_childrenOn hp hfound hparent)

theorem ids_listed : registry.listed.map (·.id) = registry.tops.flatMap Channel.group := by
  rw [listed, List.map_flatMap]
  refine List.flatMap_congr fun top htop => ?_
  rw [List.map_cons, h.ids_childrenOn (h.mem_tops.mp htop).1, Channel.group]

/-- A group has no channel twice, and two groups have no channel in common, because every channel
has one owner. -/
theorem nodup_ids_listed : (registry.listed.map (·.id)).Nodup := by
  rw [h.ids_listed, List.nodup_flatMap]
  constructor
  · intro top htop
    obtain ⟨hfound, hparent⟩ := h.mem_tops.mp htop
    exact List.nodup_cons.mpr ⟨h.unlisted_of_top hfound hparent hfound, h.nodup hfound⟩
  · have hdistinct : registry.tops.Nodup := (List.Nodup.of_map _ h.distinct).filter _
    refine hdistinct.imp_of_mem fun {top other} htop hother hne id hid hid' => ?_
    obtain ⟨hfound, hparent⟩ := h.mem_tops.mp htop
    obtain ⟨hfound', hparent'⟩ := h.mem_tops.mp hother
    have howner := h.owner_of_mem_group hfound hparent hid
    rw [h.owner_of_mem_group hfound' hparent' hid'] at howner
    exact hne (Except.ok.inj howner).symm

theorem perm_listed : registry.listed.Perm registry.channels.entries :=
  (List.perm_ext_iff_of_nodup (List.Nodup.of_map _ h.nodup_ids_listed)
    (List.Nodup.of_map _ h.distinct)).mpr fun _ => h.mem_listed

/-! ## The lines -/

theorem tree_eq_map : registry.tree = registry.listed.map Channel.ownLine := by
  rw [tree, listed, List.map_flatMap]
  refine List.flatMap_congr fun top htop => ?_
  obtain ⟨hfound, hparent⟩ := h.mem_tops.mp htop
  have htopLine : top.ownLine = top.line 0 := by rw [Channel.ownLine, isTop_iff.mpr hparent]; rfl
  have hlines : (registry.childrenOn top).map Channel.ownLine =
      (registry.childrenOn top).map (·.line 1) := by
    refine List.map_congr_left fun d hd => ?_
    have hbelow := (h.parent_of_mem_childrenOn hfound hd).2
    rw [Channel.ownLine, Channel.isTop, hbelow]
    rfl
  rw [List.map_cons, htopLine, hlines, childrenOn]

/-- Where the lines stand: each top channel is followed by its list. -/
theorem outline_eq :
    registry.tree.map (fun line => (line.id, line.depth)) =
      registry.tops.flatMap fun top => (top.id, 0) :: top.subchannels.map (·, 1) := by
  rw [tree, List.map_flatMap]
  refine List.flatMap_congr fun top htop => ?_
  have hids := congrArg (List.map (·, 1)) (h.ids_childrenOn (h.mem_tops.mp htop).1)
  rw [List.map_map] at hids
  rw [List.map_cons, List.map_map, ← hids]
  rfl

end Forest

/-! ## The default channel -/

/-- The default channel is marked, and no other. -/
theorem Sound.filter_isDefault_tree (h : Sound registry) :
    registry.tree.filter (·.isDefault) =
      (registry.defaultChannel.toOption.map (·.line 0)).toList := by
  have hmark (c : Channel) :
      c.ownLine.isDefault = true ↔ c.parent = none ∧ c.info.flags.has .default = true := by
    rw [Channel.ownLine, Channel.line, Bool.and_eq_true, isTop_iff]
  rw [h.forest.tree_eq_map, List.filter_map]
  cases hdefault : registry.defaultChannel with
  | error fault =>
      have hnobody : registry.listed.filter ((·.isDefault) ∘ Channel.ownLine) = [] := by
        refine List.filter_eq_nil_iff.mpr fun c hc hmarked => ?_
        have hmem := h.forest.mem_listed.mp hc
        have hfound := (h.defaultChannel_eq hmem ((hmark c).mp hmarked).2).2
        rw [hdefault] at hfound
        cases hfound
      rw [hnobody]
      rfl
  | ok d =>
      obtain ⟨hd, htop, hflag⟩ := defaultChannel_ok hdefault
      have honly : (registry.listed.filter ((·.isDefault) ∘ Channel.ownLine)).Perm [d] := by
        have hlisted : registry.listed.Nodup := List.Nodup.of_map _ h.forest.nodup_ids_listed
        refine (List.perm_ext_iff_of_nodup (hlisted.filter _) (List.nodup_singleton d)).mpr
          fun c => ?_
        rw [List.mem_filter, h.forest.mem_listed, List.mem_singleton, Function.comp_apply, hmark]
        constructor
        · rintro ⟨hc, -, hmarked⟩
          have hfound := (h.defaultChannel_eq hc hmarked).2
          rw [hdefault] at hfound
          exact (Except.ok.inj hfound).symm
        · rintro rfl
          exact ⟨hd, htop, hflag⟩
      rw [List.perm_singleton.mp honly, List.map_singleton, Channel.ownLine, isTop_iff.mpr htop]
      rfl

end Registry

namespace Session

variable {store : Store} {limits : Limits} {session : Session}

/-- In every reachable session the tree has one line for each channel: the top channels at depth 0
in the order of the registry, and right after each of them its subchannels at depth 1 in the order
of its list.  The line that is marked as that of the default channel, if there is one, is that of
the channel which `defaultChannel` finds. -/
theorem tree_of_reachable (h : Reachable store limits session) :
    session.registry.tree.map (fun line => (line.id, line.depth)) =
      (session.registry.channels.entries.filter (·.isTop)).flatMap
        (fun top => (top.id, 0) :: top.subchannels.map (·, 1)) ∧
    session.registry.tree.Perm
      (session.registry.channels.entries.map fun c => c.line (if c.isTop then 0 else 1)) ∧
    (session.registry.tree.map (·.id)).Perm session.registry.channels.ids ∧
    (session.registry.tree.map (·.id)).Nodup ∧
    (∀ d, session.registry.defaultChannel = .ok d →
      session.registry.tree.filter (·.isDefault) = [d.line 0]) ∧
    ∀ fault, session.registry.defaultChannel = .error fault →
      session.registry.tree.filter (·.isDefault) = [] := by
  have hsound := Registry.sound_of_reachable h
  have hforest := hsound.forest
  have hlines := hforest.tree_eq_map
  have hids : session.registry.tree.map (·.id) = session.registry.listed.map (·.id) := by
    rw [hlines, List.map_map]
    rfl
  refine ⟨hforest.outline_eq, ?_, ?_, ?_, fun d hdefault => ?_, fun fault hdefault => ?_⟩
  · rw [hlines]
    exact hforest.perm_listed.map _
  · rw [hids]
    exact hforest.perm_listed.map _
  · rw [hids]
    exact hforest.nodup_ids_listed
  · rw [hsound.filter_isDefault_tree, hdefault]
    rfl
  · rw [hsound.filter_isDefault_tree, hdefault]
    rfl

/-- The subchannels stand in the order in which they were attached, and between them and the next
top channel there is nothing else. -/
theorem tree_of_lobby :
    let upper : Metadata := { Metadata.preset with flags := .subchannels }
    let batch : List Wire.Entry :=
      [⟨⟨4⟩, some ⟨1⟩, .preset⟩, ⟨⟨1⟩, none, upper⟩, ⟨⟨2⟩, none, .preset⟩,
        ⟨⟨3⟩, some ⟨1⟩, .preset⟩]
    let session := (start (.empty {})).run .none [.importBatch batch, .setDefault ⟨2⟩]
    session.registry.tree.map (fun line => (line.id, line.depth)) =
        [(⟨1⟩, 0), (⟨4⟩, 1), (⟨3⟩, 1), (⟨2⟩, 0)] ∧
      ∃ line, session.registry.tree.filter (·.isDefault) = [line] ∧ line.id = ⟨2⟩ := by
  intro upper batch session
  obtain ⟨houtline, -, -, -, hmarked, -⟩ :=
    @tree_of_reachable .none {} session (.step _ (.step _ .start))
  have hdefault : session.registry.defaultChannel.toOption.map (·.id) = some ⟨2⟩ := by
    decide +kernel
  refine ⟨houtline.trans (by decide +kernel), ?_⟩
  cases hfound : session.registry.defaultChannel with
  | error fault =>
      rw [hfound] at hdefault
      cases hdefault
  | ok d =>
      rw [hfound] at hdefault
      exact ⟨d.line 0, hmarked d hfound, Option.some.inj hdefault⟩

end Session

end ChannelServer
