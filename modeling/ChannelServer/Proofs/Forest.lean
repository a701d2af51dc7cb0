import ChannelServer.Proofs.Change

/-!
# The forest of channels

Which channel is below which is written down twice: a channel names its parent, and a parent lists
its subchannels.  `Forest` says that both are the same relation, that it has two levels, and that
only channels with the flag for it have subchannels.

Most changes do not touch what the forest is made of.  For them it is enough that every channel
keeps its `node`; the others are a channel that comes, one that goes, and the two ends of a link
that is made or given up.

## Main results

* `Forest.change`: every change keeps the forest.
* `forest_of_reachable`: in every reachable session the channels are a forest.
* `two_levels_of_reachable`: what this means for parents and for effective flags.
-/

namespace ChannelServer

/-- What the forest sees of a channel. -/
structure Channel.Node where
  parent : Option ChannelId
  subchannels : List ChannelId
  takesSubchannels : Bool

/-- What the forest sees of this channel. -/
def Channel.node (c : Channel) : Channel.Node where
  parent := c.parent
  subchannels := c.subchannels
  takesSubchannels := c.info.flags.has .subchannels

namespace Registry

/-- The channels of a registry are a forest of two levels. -/
structure Forest (registry : Registry) : Prop where
  /-- No two channels have the same id. -/
  distinct : registry.channels.ids.Nodup
  /-- A channel names a parent exactly if it is on the list of that parent. -/
  parent_iff : ∀ {id c}, registry.channels.get? id = some c → ∀ parent,
    c.parent = some parent ↔ ∃ p, registry.channels.get? parent = some p ∧ id ∈ p.subchannels
  /-- No channel is listed twice. -/
  nodup : ∀ {id c}, registry.channels.get? id = some c → c.subchannels.Nodup
  /-- Whatever is listed is there. -/
  found : ∀ {id c}, registry.channels.get? id = some c → ∀ child ∈ c.subchannels,
    ∃ d, registry.channels.get? child = some d
  /-- A subchannel has no subchannels. -/
  childless : ∀ {id c}, registry.channels.get? id = some c → c.parent ≠ none → c.subchannels = []
  /-- A channel with subchannels may have them. -/
  takesSubchannels : ∀ {id c}, registry.channels.get? id = some c → c.subchannels ≠ [] →
    c.info.flags.has .subchannels = true

namespace Forest

variable {registry registry' : Registry}

theorem empty (limits : Limits) : Forest (.empty limits) := by
  constructor <;> simp [Registry.empty, Slots.ids, Slots.get?]

/-! ## What follows at once -/

theorem parentFound (h : Forest registry) {id : ChannelId} {c : Channel}
    (hfound : registry.channels.get? id = some c) : ParentFound registry c := by
  intro parent hparent
  obtain ⟨p, hp, -⟩ := (h.parent_iff hfound parent).mp hparent
  exact ⟨p, hp⟩

/-- The parent of a channel is a top channel. -/
theorem parent_top (h : Forest registry) {id parent : ChannelId} {c p : Channel}
    (hfound : registry.channels.get? id = some c) (hparent : c.parent = some parent)
    (hp : registry.channels.get? parent = some p) : p.parent = none := by
  obtain ⟨p', hp', hmem⟩ := (h.parent_iff hfound parent).mp hparent
  rw [hp] at hp'
  cases hp'
  by_contra hbelow
  rw [h.childless hp hbelow] at hmem
  cases hmem

/-- What a channel lists names it as the parent. -/
theorem parent_of_mem (h : Forest registry) {id parent : ChannelId} {c p : Channel}
    (hp : registry.channels.get? parent = some p) (hmem : id ∈ p.subchannels)
    (hfound : registry.channels.get? id = some c) : c.parent = some parent :=
  (h.parent_iff hfound parent).mpr ⟨p, hp, hmem⟩

/-- A channel lists the channels that name it as the parent. -/
theorem mem_subchannels_iff (h : Forest registry) {id child : ChannelId} {c : Channel}
    (hfound : registry.channels.get? id = some c) :
    child ∈ c.subchannels ↔
      ∃ d, registry.channels.get? child = some d ∧ d.parent = some id := by
  constructor
  · intro hmem
    obtain ⟨d, hd⟩ := h.found hfound child hmem
    exact ⟨d, hd, h.parent_of_mem hfound hmem hd⟩
  · rintro ⟨d, hd, hparent⟩
    obtain ⟨c', hc', hmem⟩ := (h.parent_iff hd id).mp hparent
    rw [hfound] at hc'
    cases hc'
    exact hmem

/-- A top channel is listed by nobody. -/
theorem unlisted_of_top (h : Forest registry) {id other : ChannelId} {c d : Channel}
    (hfound : registry.channels.get? id = some c) (htop : c.parent = none)
    (hother : registry.channels.get? other = some d) : id ∉ d.subchannels := by
  intro hmem
  have hbelow := h.parent_of_mem hother hmem hfound
  rw [htop] at hbelow
  cases hbelow

/-- No channel is its own parent. -/
theorem parent_ne_self (h : Forest registry) {id : ChannelId} {c : Channel}
    (hfound : registry.channels.get? id = some c) : c.parent ≠ some id := by
  intro hself
  have htop := h.parent_top hfound hself hfound
  rw [htop] at hself
  cases hself

/-- Every channel has effective flags. -/
theorem exists_effectiveFlags (h : Forest registry) {id : ChannelId} {c : Channel}
    (hfound : registry.channels.get? id = some c) :
    ∃ flags, registry.effectiveFlags id = .ok flags := by
  cases hparent : c.parent with
  | none => exact ⟨_, effectiveFlags_of_top hfound hparent⟩
  | some parent =>
      obtain ⟨p, hp⟩ := h.parentFound hfound parent hparent
      exact ⟨_, effectiveFlags_of_below hfound hparent hp⟩

/-- A subchannel has the effective flags of its parent, except the two that are not inherited. -/
theorem effectiveFlags_subchannel (h : Forest registry) {parent child : ChannelId} {p : Channel}
    (hp : registry.channels.get? parent = some p) (hmem : child ∈ p.subchannels) :
    ∃ flags, registry.effectiveFlags parent = .ok flags ∧
      registry.effectiveFlags child = .ok ((flags.without .subchannels).without .default) := by
  obtain ⟨c, hc⟩ := h.found hp child hmem
  have hparent := h.parent_of_mem hp hmem hc
  have htop := h.parent_top hc hparent hp
  refine ⟨p.info.flags, effectiveFlags_of_top hp htop, ?_⟩
  rw [effectiveFlags_of_below hc hparent hp, Flags.notInherited, Flags.without_union]

/-- The owner of a channel is its parent or else the channel itself, and it is a top channel. -/
theorem exists_owner (h : Forest registry) {id : ChannelId} {c : Channel}
    (hfound : registry.channels.get? id = some c) :
    ∃ owner, registry.owner id = .ok owner ∧
      registry.channels.get? (c.parent.getD id) = some owner ∧ owner.parent = none := by
  cases hparent : c.parent with
  | none => exact ⟨c, owner_of_top hfound hparent, hfound, hparent⟩
  | some parent =>
      obtain ⟨p, hp⟩ := h.parentFound hfound parent hparent
      exact ⟨p, owner_of_below hfound hparent hp, hp, h.parent_top hfound hparent hp⟩

theorem top_of_owner (h : Forest registry) {id : ChannelId} {owner : Channel}
    (howner : registry.owner id = .ok owner) : owner.parent = none := by
  cases hfound : registry.channels.get? id with
  | none =>
      rw [owner_of_missing hfound] at howner
      cases howner
  | some c =>
      obtain ⟨owner', howner', -, htop⟩ := h.exists_owner hfound
      rw [howner] at howner'
      cases howner'
      exact htop

/-! ## Changes outside of the forest -/

/-- If every channel keeps its node, the forest stays. -/
theorem of_same_nodes (h : Forest registry) (hids : registry'.channels.ids = registry.channels.ids)
    (hnodes : ∀ id, (registry'.channels.get? id).map Channel.node =
      (registry.channels.get? id).map Channel.node) : Forest registry' := by
  have hsame {id : ChannelId} {c' : Channel} (hc' : registry'.channels.get? id = some c') :
      ∃ c, registry.channels.get? id = some c ∧ c.node = c'.node := by
    have hid := hnodes id
    rw [hc', Option.map_some, eq_comm, Option.map_eq_some_iff] at hid
    exact hid
  have hback {id : ChannelId} {c : Channel} (hc : registry.channels.get? id = some c) :
      ∃ c', registry'.channels.get? id = some c' ∧ c'.node = c.node := by
    have hid := hnodes id
    rw [hc, Option.map_some, Option.map_eq_some_iff] at hid
    exact hid
  have hfields {c c' : Channel} (hnode : c.node = c'.node) :
      c.parent = c'.parent ∧ c.subchannels = c'.subchannels ∧
        c.info.flags.has .subchannels = c'.info.flags.has .subchannels := by
    simpa only [Channel.node, Channel.Node.mk.injEq] using hnode
  constructor
  · rw [hids]
    exact h.distinct
  · intro id c' hc' parent
    obtain ⟨c, hc, hnode⟩ := hsame hc'
    obtain ⟨hparent, -, -⟩ := hfields hnode
    rw [← hparent, h.parent_iff hc]
    constructor
    · rintro ⟨p, hp, hmem⟩
      obtain ⟨p', hp', hnode'⟩ := hback hp
      exact ⟨p', hp', by rw [(hfields hnode').2.1]; exact hmem⟩
    · rintro ⟨p', hp', hmem⟩
      obtain ⟨p, hp, hnode'⟩ := hsame hp'
      exact ⟨p, hp, by rw [(hfields hnode').2.1]; exact hmem⟩
  · intro id c' hc'
    obtain ⟨c, hc, hnode⟩ := hsame hc'
    rw [← (hfields hnode).2.1]
    exact h.nodup hc
  · intro id c' hc' child hmem
    obtain ⟨c, hc, hnode⟩ := hsame hc'
    obtain ⟨d, hd⟩ := h.found hc child (by rw [(hfields hnode).2.1]; exact hmem)
    obtain ⟨d', hd', -⟩ := hback hd
    exact ⟨d', hd'⟩
  · intro id c' hc' hparent
    obtain ⟨c, hc, hnode⟩ := hsame hc'
    rw [← (hfields hnode).2.1]
    exact h.childless hc (by rw [(hfields hnode).1]; exact hparent)
  · intro id c' hc' hsubchannels
    obtain ⟨c, hc, hnode⟩ := hsame hc'
    rw [← (hfields hnode).2.2]
    exact h.takesSubchannels hc (by rw [(hfields hnode).2.1]; exact hsubchannels)

/-- A change of one channel that keeps its id and its node keeps the forest. -/
theorem withChange (h : Forest registry) (id : ChannelId) (f : Channel → Channel)
    (hf : ∀ c, registry.channels.get? id = some c → (f c).id = c.id ∧ (f c).node = c.node) :
    Forest (registry.withChange id f) := by
  refine h.of_same_nodes (Slots.ids_modify_found _ _ _ fun c hc => (hf c hc).1) fun id' => ?_
  rw [get?_withChange _ _ fun c hc => (hf c hc).1]
  split
  · subst id'
    cases hc : registry.channels.get? id with
    | none => rfl
    | some c => rw [Option.map_some, Option.map_some, Option.map_some, (hf c hc).2]
  · rfl

/-! ## Changes of the forest -/

/-- A new channel is a tree of its own. -/
theorem withChannel (h : Forest registry) {id : ChannelId} {info : Metadata}
    (hadd : Admissible registry id info) : Forest (registry.withChannel id info) := by
  have hfree := hadd.free
  have hget := get?_withChannel hfree info
  have hparent := @h.parent_iff
  have hfound := @h.found
  constructor
  · exact Slots.nodup_ids_append h.distinct hfree
  · intro id' c hc parent
    grind
  · have := @h.nodup
    grind
  · grind
  · have := @h.childless
    grind
  · have := @h.takesSubchannels
    grind

/-- A subchannel that is taken away from its parent is a tree of its own. -/
theorem unlink (h : Forest registry) {parent child : ChannelId}
    (hdetach : Detachable registry parent child) : Forest (registry.unlink parent child) := by
  obtain ⟨c, hc, hbelow, -⟩ := hdetach
  have hne : parent ≠ child := fun heq => h.parent_ne_self hc (heq ▸ hbelow)
  have hget := get?_unlink registry hne
  have hparent := @h.parent_iff
  have hfound := @h.found
  constructor
  · rw [ids_unlink]
    exact h.distinct
  · intro id c' hc' parent'
    grind [Channel.rise, Channel.release]
  · have := @h.nodup
    grind [Channel.rise, Channel.release, List.Nodup.filter]
  · grind [Channel.rise, Channel.release]
  · have := @h.childless
    grind [Channel.rise, Channel.release]
  · have := @h.takesSubchannels
    grind [Channel.rise, Channel.release]

/-- A top channel without subchannels can be put below another top channel. -/
structure Linkable (registry : Registry) (parent child : ChannelId) (p c : Channel) : Prop where
  parentFound : registry.channels.get? parent = some p
  childFound : registry.channels.get? child = some c
  parentTop : p.parent = none
  childTop : c.parent = none
  takesSubchannels : p.info.flags.has .subchannels = true
  distinct : parent ≠ child
  childless : c.subchannels = []

/-- A link between two top channels keeps the forest. -/
theorem link (h : Forest registry) {parent child : ChannelId} {p c : Channel}
    (hlink : Linkable registry parent child p c) : Forest (registry.link parent child) := by
  obtain ⟨hp, hc, hparentTop, hchildTop, htakes, hne, hchildless⟩ := hlink
  have hget := get?_link registry hne
  have hparent := @h.parent_iff
  have hfound := @h.found
  have hunlisted {id : ChannelId} {d : Channel} (hd : registry.channels.get? id = some d) :
      child ∉ d.subchannels := h.unlisted_of_top hc hchildTop hd
  constructor
  · rw [ids_link]
    exact h.distinct
  · intro id c' hc' parent'
    grind [Channel.sink, Channel.adopt]
  · have := @h.nodup
    grind [Channel.sink, Channel.adopt]
  · grind [Channel.sink, Channel.adopt]
  · have := @h.childless
    grind [Channel.sink, Channel.adopt]
  · have := @h.takesSubchannels
    grind [Channel.sink, Channel.adopt]

theorem free (h : Forest registry) (child : ChannelId) : Forest (registry.free child) := by
  unfold Registry.free
  split
  · rename_i former hformer
    obtain ⟨c, hc, hbelow⟩ := Option.bind_eq_some_iff.mp hformer
    exact h.unlink ⟨c, hc, hbelow, h.parentFound hc⟩
  · exact h

/-- Freeing a channel, said of every channel at once. -/
theorem free_eq_map (h : Forest registry) {id : ChannelId} {c : Channel}
    (hc : registry.channels.get? id = some c) :
    registry.free id =
      { registry with
        channels := registry.channels.map fun d =>
          if d.id = id then d.rise else if c.parent = some d.id then d.release id else d } := by
  cases hparent : c.parent with
  | none =>
      have hsame : ∀ d ∈ registry.channels.entries,
          (if d.id = id then d.rise else if none = some d.id then d.release id else d) = d := by
        intro d hd
        by_cases hid : d.id = id
        · have hfound : registry.channels.get? d.id = some d := Slots.get?_of_mem h.distinct hd
          rw [hid, hc] at hfound
          cases hfound
          rw [if_pos hid, Channel.rise, ← hparent]
        · simp [hid]
      rw [free_of_top hc hparent, Slots.map_eq_self hsame]
  | some parent =>
      have hne : parent ≠ id := fun heq => h.parent_ne_self hc (heq ▸ hparent)
      rw [free_of_below hc hparent, unlink_eq_map h.distinct hne]
      simp only [Option.some.injEq, @eq_comm _ parent]

/-- What can be attached can be linked as soon as it is free. -/
theorem linkable_free (h : Forest registry) {parent child : ChannelId} {p c : Channel}
    (hattach : Attachable registry parent child p c) :
    ∃ p' c', Linkable (registry.free child) parent child p' c' := by
  obtain ⟨hp, hc, hparentTop, htakes, hne, hchildless, -, -⟩ := hattach
  cases htop : c.parent with
  | none =>
      rw [free_of_top hc htop]
      exact ⟨p, c, hp, hc, hparentTop, htop, htakes, hne, hchildless⟩
  | some former =>
      have hformer : former ≠ child := fun heq => h.parent_ne_self hc (heq ▸ htop)
      rw [free_of_below hc htop]
      have hc' : (registry.unlink former child).channels.get? child = some c.rise := by
        rw [get?_unlink registry hformer, if_pos rfl, hc, Option.map_some]
      by_cases heq : parent = former
      · refine ⟨p.release child, c.rise, ?_, hc', hparentTop, rfl, htakes, hne, hchildless⟩
        rw [get?_unlink registry hformer, if_neg hne, if_pos heq, hp, Option.map_some]
      · refine ⟨p, c.rise, ?_, hc', hparentTop, rfl, htakes, hne, hchildless⟩
        rw [get?_unlink registry hformer, if_neg hne, if_neg heq, hp]

theorem graft (h : Forest registry) {parent child : ChannelId} {p c : Channel}
    (hattach : Attachable registry parent child p c) : Forest (registry.graft parent child) := by
  obtain ⟨p', c', hlink⟩ := h.linkable_free hattach
  exact (h.free child).link hlink

/-- When a top channel is destroyed, its subchannels become trees of their own. -/
theorem remove (h : Forest registry) {id : ChannelId} {c : Channel}
    (hc : registry.channels.get? id = some c) (htop : c.parent = none) :
    Forest (registry.remove id c) := by
  have hget := get?_remove h.distinct id c
  have hunlisted {id' : ChannelId} {d : Channel} (hd : registry.channels.get? id' = some d) :
      id ∉ d.subchannels := h.unlisted_of_top hc htop hd
  have hparent := @h.parent_iff
  have hfound := @h.found
  constructor
  · rw [ids_remove]
    exact Slots.nodup_ids_erase h.distinct id
  · intro id' c' hc' parent'
    -- A channel that loses its parent was listed by nobody else.
    have honly {d : Channel} (hd : registry.channels.get? id' = some d)
        (hmem : id' ∈ c.subchannels) : d.parent = some id := h.parent_of_mem hc hmem hd
    by_cases hmem : id' ∈ c.subchannels
    · grind [Channel.rise]
    · grind [Channel.rise]
  · have := @h.nodup
    grind [Channel.rise]
  · intro id' c' hc' child hmem
    have hne : child ≠ id := by
      rintro rfl
      grind [Channel.rise]
    grind [Channel.rise]
  · have := @h.childless
    grind [Channel.rise]
  · have := @h.takesSubchannels
    grind [Channel.rise]

/-! ## Every change -/

theorem node_resignDefault (c : Channel) : c.resignDefault.node = c.node := by
  have hflags : c.resignDefault.info.flags.has .subchannels = c.info.flags.has .subchannels :=
    Flags.has_without_of_disjoint _ (by decide)
  rw [Channel.node, hflags]
  rfl

theorem node_crown (c : Channel) : c.crown.node = c.node := by
  have hflags : c.crown.info.flags.has .subchannels = c.info.flags.has .subchannels :=
    Flags.has_union_of_disjoint _ (by decide)
  rw [Channel.node, hflags]
  rfl

/-- The default flag is none of the forest's business. -/
theorem crown (h : Forest registry) (id : ChannelId) : Forest (registry.crown id) := by
  unfold Registry.crown
  split
  · rename_i former _
    split
    · exact h
    · have hresigned := h.withChange former.id Channel.resignDefault fun c _ =>
        ⟨rfl, node_resignDefault c⟩
      exact hresigned.withChange id Channel.crown fun c _ => ⟨rfl, node_crown c⟩
  · exact h.withChange id Channel.crown fun c _ => ⟨rfl, node_crown c⟩

theorem node_edited {c c' : Channel} (h : c.Edited c') : c'.node = c.node := by
  have hflags : c'.info.flags.has .subchannels = c.info.flags.has .subchannels :=
    h.has_eq (by decide)
  simp only [Channel.node, h.parent, h.subchannels, hflags]

theorem node_putRecord (record : Record) (c : Channel) : (c.putRecord record).node = c.node := by
  rw [Channel.putRecord_eq]
  rfl

theorem node_receive (who : PlayerId) (c : Channel) :
    (c.receive who).id = c.id ∧ (c.receive who).node = c.node := by
  rw [Channel.receive_eq]
  exact ⟨rfl, rfl⟩

/-- Only the channels matter to the forest. -/
theorem of_channels (h : Forest registry) (hsame : registry'.channels = registry.channels) :
    Forest registry' :=
  h.of_same_nodes (by rw [hsame]) fun id => by rw [hsame]

theorem withoutPlayer (h : Forest registry) (id : PlayerId) :
    Forest (registry.withoutPlayer id) := by
  refine h.of_same_nodes (Slots.ids_map _ (forget id) fun _ => rfl) fun id' => ?_
  rw [get?_withoutPlayer, Option.map_map]
  rfl

theorem unseat (h : Forest registry) (who : PlayerId) (p : Player) :
    Forest (registry.unseat who p) := by
  unfold Registry.unseat
  split
  · exact h.withChange _ _ fun _ _ => ⟨rfl, rfl⟩
  · exact h

theorem change (h : Forest registry) {way : Way} (hchange : Change registry way registry') :
    Forest registry' := by
  cases hchange with
  | add hadd => exact h.withChannel hadd
  | unlink hdetach => exact h.unlink hdetach
  | graft hattach => exact h.graft hattach
  | remove found top => exact h.remove found top
  | crown _ => exact h.crown _
  | edit found edited =>
      apply h.withChange _ _
      intro c hc
      rw [found] at hc
      cases hc
      exact ⟨edited.id, node_edited edited⟩
  | setRights _ _ _ =>
      exact h.withChange _ _ fun c _ => ⟨Channel.id_setRights _ _, node_putRecord _ c⟩
  | arrive _ _ _ => exact h.of_channels rfl
  | depart _ => exact h.withoutPlayer _
  | seat _ => exact (h.withChange _ _ fun c _ => node_receive _ c).of_channels rfl
  | quit _ => exact (h.unseat _ _).of_channels rfl
  | ban _ _ => exact h.of_channels rfl
  | unban => exact h.of_channels rfl

end Forest

/-- In every reachable session the channels are a forest. -/
theorem forest_of_reachable {store : Store} {limits : Limits} {session : Session}
    (h : Session.Reachable store limits session) : Forest session.registry :=
  Session.invariant_of_reachable (.empty limits) (fun _ _ _ h hchange => h.change hchange) h

/-- An invariant that needs the forest to be kept is kept together with it. -/
theorem invariant_of_forest {store : Store} {limits : Limits} {session : Session}
    {Invariant : Registry → Prop} (hempty : Invariant (.empty limits))
    (hchange : ∀ r way r', Forest r → Invariant r → Change r way r' → Invariant r')
    (h : Session.Reachable store limits session) : Invariant session.registry := by
  have hboth := @Session.invariant_of_reachable store session limits
    (fun registry => Forest registry ∧ Invariant registry) ⟨.empty limits, hempty⟩
    (fun r way r' h hstep => ⟨h.1.change hstep, hchange r way r' h.1 h.2 hstep⟩) h
  exact hboth.2

/-- In every reachable session the channels are a forest of two levels, so whether a channel has
effective flags and which ones a subchannel has can be read off the tree. -/
theorem two_levels_of_reachable {store : Store} {limits : Limits} {session : Session}
    (h : Session.Reachable store limits session) :
    Forest session.registry ∧
      (∀ id c parent, session.registry.channels.get? id = some c → c.parent = some parent →
        ∃ p, session.registry.channels.get? parent = some p ∧ p.parent = none) ∧
      (∀ id c, session.registry.channels.get? id = some c →
        ∃ flags, session.registry.effectiveFlags id = .ok flags) ∧
      ∀ parent p child, session.registry.channels.get? parent = some p → child ∈ p.subchannels →
        ∃ flags, session.registry.effectiveFlags parent = .ok flags ∧
          session.registry.effectiveFlags child =
            .ok ((flags.without .subchannels).without .default) := by
  have hforest := forest_of_reachable h
  refine ⟨hforest, ?_, ?_, ?_⟩
  · intro id c parent hc hparent
    obtain ⟨p, hp⟩ := hforest.parentFound hc parent hparent
    exact ⟨p, hp, hforest.parent_top hc hparent hp⟩
  · intro id c hc
    exact hforest.exists_effectiveFlags hc
  · intro parent p child hp hmem
    exact hforest.effectiveFlags_subchannel hp hmem

/-- Two channels are imported, one below the other, and the upper one becomes the default
channel. -/
theorem two_levels_after_import :
    let upper : Metadata := { Metadata.preset with flags := .subchannels }
    let session := (Session.start (.empty {})).run .none
      [.importBatch [⟨⟨1⟩, none, upper⟩, ⟨⟨2⟩, some ⟨1⟩, .preset⟩], .setDefault ⟨1⟩]
    ∃ flags, session.registry.effectiveFlags ⟨1⟩ = .ok flags ∧
      session.registry.effectiveFlags ⟨2⟩ = .ok ((flags.without .subchannels).without .default) :=
  (@two_levels_of_reachable .none {} _
    (.step (.setDefault ⟨1⟩) (.step (.importBatch _) .start))).2.2.2 ⟨1⟩ _ ⟨2⟩ rfl (by decide)

end Registry

end ChannelServer
