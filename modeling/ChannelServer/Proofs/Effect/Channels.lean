import ChannelServer.Proofs.Effect.Basic
import ChannelServer.Proofs.Effect.Numbers

/-!
# What the operations on channels do

For every operation on channels this file names the registry that it leaves when it succeeds, as a
function of the registry before, and says when it succeeds.

A channel that is attached or destroyed is first taken away from the parent that it had.  `free` is
that first part, so that `graft` and `remove` need to say nothing about it.
-/

namespace ChannelServer

namespace Channel

/-- The channel without one of its subchannels. -/
def release (child : ChannelId) (channel : Channel) : Channel :=
  { channel with subchannels := channel.subchannels.filter (· ≠ child) }

/-- The channel with one more subchannel. -/
def adopt (child : ChannelId) (channel : Channel) : Channel :=
  { channel with subchannels := channel.subchannels ++ [child] }

/-- The channel as a top channel. -/
def rise (channel : Channel) : Channel := { channel with parent := none }

/-- The channel below a parent.  Its records are gone. -/
def sink (parent : ChannelId) (channel : Channel) : Channel :=
  { channel with parent := some parent, records := [] }

/-- The channel with the default flag. -/
def crown (channel : Channel) : Channel :=
  channel.setFlags (channel.info.flags.union .default)

/-- The channel under the protection of a password. -/
def protect (password : Password) (channel : Channel) : Channel :=
  { channel.setFlags (channel.info.flags.union .password) with password := password }

/-- The channel without a password. -/
def unprotect (channel : Channel) : Channel :=
  { channel.setFlags (channel.info.flags.without .password) with password := .empty }

end Channel

namespace Registry

variable {registry : Registry}

/-- The registry with a change of one channel. -/
def withChange (id : ChannelId) (f : Channel → Channel) (registry : Registry) : Registry :=
  { registry with channels := registry.channels.modify id f }

theorem get?_withChange (id : ChannelId) (f : Channel → Channel)
    (hid : ∀ c, registry.channels.get? id = some c → (f c).id = c.id) (id' : ChannelId) :
    (registry.withChange id f).channels.get? id' =
      if id' = id then (registry.channels.get? id').map f else registry.channels.get? id' :=
  Slots.get?_modify_found _ _ _ f hid

/-! ## Adding a channel -/

/-- The registry with a new channel at the end. -/
def withChannel (id : ChannelId) (info : Metadata) (registry : Registry) : Registry :=
  { registry with channels := registry.channels.append { id, info } }

theorem get?_withChannel {id : ChannelId} (hfree : registry.channels.get? id = none)
    (info : Metadata) (id' : ChannelId) :
    (registry.withChannel id info).channels.get? id' =
      if id' = id then some { id, info } else registry.channels.get? id' := by
  have happend := Slots.get?_append registry.channels { id, info } id'
  by_cases hid : id' = id
  · rw [if_pos hid]
    subst hid
    exact happend.trans (by rw [hfree, Option.none_or]; exact if_pos rfl)
  · rw [if_neg hid]
    exact happend.trans (by rw [if_neg (fun heq => hid heq.symm), Option.or_none])

/-- A channel with this id and this metadata can be added. -/
structure Admissible (registry : Registry) (id : ChannelId) (info : Metadata) : Prop where
  valid : info.check = .ok ()
  notReserved : id ≠ .reserved
  free : registry.channels.get? id = none
  single : info.flags.has .default = true → ¬ registry.HasDefault
  room : registry.channels.entries.length < registry.channels.capacity

theorem addChannelAs_allOrNothing (id : ChannelId) (info : Metadata) :
    AllOrNothing (addChannelAs id info) registry (Admissible registry id info) ()
      (registry.withChannel id info) := by
  constructor
  · intro h
    have hfree : registry.channels.contains id = false := by simp [Slots.contains, h.free]
    have hroom : registry.channels.isFull = false := by
      simp [Slots.isFull, Nat.not_le.mpr h.room]
    by_cases hdefault : registry.HasDefault
    · have hflag : info.flags.has .default = false :=
        Bool.eq_false_iff.mpr fun hflag => h.single hflag hdefault
      obtain ⟨d, hd⟩ := exists_defaultChannel hdefault
      simp [addChannelAs, h.valid, h.notReserved, hfree, hd, hflag, Slots.insert_eq, hroom,
        withChannel]
    · simp [addChannelAs, h.valid, h.notReserved, hfree, defaultChannel_error hdefault,
        Slots.insert_eq, hroom, withChannel]
  · intro h
    refine .ask_bind fun _ hvalid => .require_bind fun hid => ?_
    refine .require_bind fun hfree => ?_
    have hnone : registry.channels.get? id = none := by simpa [Slots.contains] using hfree
    have hfull (hsingle : info.flags.has .default = true → ¬ registry.HasDefault) :
        registry.channels.isFull = true := by
      by_contra hroom
      refine h ⟨hvalid, of_decide_eq_true hid, hnone, hsingle, ?_⟩
      simpa [Slots.isFull] using hroom
    have hinsert (hfull : registry.channels.isFull = true) (c : Channel) :
        registry.channels.insert c = .error (.slotsFull registry.channels.capacity) := by
      rw [Slots.insert_eq, if_pos hfull]
    by_cases hdefault : registry.HasDefault
    · obtain ⟨d, hd⟩ := exists_defaultChannel hdefault
      rw [hd]
      refine .require_bind fun hflag => .ask_bind fun channels hchannels => ?_
      rw [hinsert (hfull fun h => by simp [h] at hflag)] at hchannels
      cases hchannels
    · rw [defaultChannel_error hdefault]
      refine .ask_bind fun channels hchannels => ?_
      rw [hinsert (hfull fun _ => hdefault)] at hchannels
      cases hchannels

/-- What is in order but for the room is refused for the room. -/
theorem addChannelAs_full {id : ChannelId} {info : Metadata} (hvalid : info.check = .ok ())
    (hid : id ≠ .reserved) (hfree : registry.channels.get? id = none)
    (hsingle : info.flags.has .default = true → ¬ registry.HasDefault)
    (hfull : registry.channels.capacity ≤ registry.channels.entries.length) :
    addChannelAs id info registry = .error (.slotsFull registry.channels.capacity) registry := by
  have hcontains : registry.channels.contains id = false := by simp [Slots.contains, hfree]
  have hisFull : registry.channels.isFull = true := by simp [Slots.isFull, hfull]
  by_cases hdefault : registry.HasDefault
  · have hflag : info.flags.has .default = false :=
      Bool.eq_false_iff.mpr fun hflag => hsingle hflag hdefault
    obtain ⟨d, hd⟩ := exists_defaultChannel hdefault
    simp [addChannelAs, hvalid, hid, hcontains, hd, hflag, Slots.insert_eq, hisFull]
  · simp [addChannelAs, hvalid, hid, hcontains, defaultChannel_error hdefault, Slots.insert_eq,
      hisFull]

/-! ## Attaching and detaching -/

/-- `child` is no longer below `parent`. -/
def unlink (parent child : ChannelId) (registry : Registry) : Registry :=
  { registry with
    channels := (registry.channels.modify parent (Channel.release child)).modify child .rise }

/-- `child`, a top channel, is below `parent` from now on. -/
def link (parent child : ChannelId) (registry : Registry) : Registry :=
  { registry with
    channels := (registry.channels.modify child (Channel.sink parent)).modify parent
      (Channel.adopt child) }

/-- `child` is a top channel, whatever it was before. -/
def free (child : ChannelId) (registry : Registry) : Registry :=
  match (registry.channels.get? child).bind (·.parent) with
  | some former => registry.unlink former child
  | none => registry

/-- The parent of a channel, if it has one, is there. -/
def ParentFound (registry : Registry) (c : Channel) : Prop :=
  ∀ parent, c.parent = some parent → ∃ p, registry.channels.get? parent = some p

theorem free_of_top {child : ChannelId} {c : Channel}
    (hfound : registry.channels.get? child = some c) (htop : c.parent = none) :
    registry.free child = registry := by
  simp only [free, hfound, Option.bind_some, htop]

theorem free_of_below {parent child : ChannelId} {c : Channel}
    (hfound : registry.channels.get? child = some c) (hbelow : c.parent = some parent) :
    registry.free child = registry.unlink parent child := by
  simp only [free, hfound, Option.bind_some, hbelow]

/-- The channels below `parent` that can be taken away from it. -/
def Detachable (registry : Registry) (parent child : ChannelId) : Prop :=
  ∃ c, registry.channels.get? child = some c ∧ c.parent = some parent ∧ ParentFound registry c

theorem detach_allOrNothing (parent child : ChannelId) :
    AllOrNothing (detach parent child) registry (Detachable registry parent child) ()
      (registry.unlink parent child) := by
  have hdetach : detach parent child = (do
      let channel ← ask (·.channel child)
      require (channel.parent = some parent) (.badArgument (.notAttached child parent))
      updateChannel parent (Channel.release child)
      updateChannel child Channel.rise) := rfl
  rw [hdetach]
  constructor
  · rintro ⟨c, hchild, hbelow, hparents⟩
    obtain ⟨p, hparent⟩ := hparents parent hbelow
    obtain ⟨c', hchild'⟩ := Slots.exists_get?_modify parent (Channel.release child)
      (fun _ => rfl) hchild
    simp only [bind_apply, ask_apply, channel_eq_ok.mpr hchild, hbelow, decide_true, require_apply,
      if_true, updateChannel_ok _ hparent]
    exact updateChannel_ok _ hchild'
  · intro h
    refine .ask_bind fun c hchild => .require_bind fun hbelow => .updateChannel_bind ?_
    rw [channel_eq_ok] at hchild
    by_contra hparent
    obtain ⟨p, hp⟩ := Option.ne_none_iff_exists'.mp hparent
    refine h ⟨c, hchild, of_decide_eq_true hbelow, fun parent' hparent' => ?_⟩
    rw [of_decide_eq_true hbelow] at hparent'
    cases hparent'
    exact ⟨p, hp⟩

/-- `child`, which is the channel `c`, can be put below `parent`, which is the channel `p`. -/
structure Attachable (registry : Registry) (parent child : ChannelId) (p c : Channel) : Prop where
  parentFound : registry.channels.get? parent = some p
  childFound : registry.channels.get? child = some c
  parentTop : p.parent = none
  takesSubchannels : p.info.flags.has .subchannels = true
  distinct : parent ≠ child
  childless : c.subchannels = []
  notDefault : c.parent = none → c.info.flags.has .default = false
  formerFound : ParentFound registry c

/-- The registry after `child` was put below `parent`, wherever it was before. -/
def graft (parent child : ChannelId) (registry : Registry) : Registry :=
  (registry.free child).link parent child

theorem effectiveFlags_of_top {id : ChannelId} {c : Channel}
    (hfound : registry.channels.get? id = some c) (htop : c.parent = none) :
    registry.effectiveFlags id = .ok c.info.flags := by
  simp [effectiveFlags, channel_eq_ok.mpr hfound, htop, bind, Except.bind, pure, Except.pure]

theorem effectiveFlags_of_below {id parent : ChannelId} {c p : Channel}
    (hfound : registry.channels.get? id = some c) (hbelow : c.parent = some parent)
    (hparent : registry.channels.get? parent = some p) :
    registry.effectiveFlags id = .ok (p.info.flags.without .notInherited) := by
  simp [effectiveFlags, channel_eq_ok.mpr hfound, hbelow, channel_eq_ok.mpr hparent, bind,
    Except.bind, pure, Except.pure]

theorem not_inherits_subchannels (flags : Flags) :
    (flags.without .notInherited).has .subchannels = false :=
  Flags.not_has_without flags (by decide) (by decide)

/-- Effective flags depend on the flags and the parents of the channels and on nothing else. -/
theorem effectiveFlags_congr {registry' : Registry} (h : ∀ id,
      (registry'.channels.get? id).map (fun c => (c.info.flags, c.parent)) =
        (registry.channels.get? id).map (fun c => (c.info.flags, c.parent))) (id : ChannelId) :
    registry'.effectiveFlags id = registry.effectiveFlags id := by
  have hagree (id : ChannelId) :
      (registry'.channels.get? id = none ∧ registry.channels.get? id = none) ∨
        ∃ c' c, registry'.channels.get? id = some c' ∧ registry.channels.get? id = some c ∧
          c'.info.flags = c.info.flags ∧ c'.parent = c.parent := by
    have hid := h id
    cases hc' : registry'.channels.get? id <;> cases hc : registry.channels.get? id <;>
      simp_all
  rcases hagree id with ⟨hc', hc⟩ | ⟨c', c, hc', hc, hflags, hparent⟩
  · simp [effectiveFlags, channel_eq_error hc', channel_eq_error hc, bind, Except.bind]
  · cases htop : c.parent with
    | none =>
        rw [effectiveFlags_of_top hc' (hparent.trans htop), effectiveFlags_of_top hc htop, hflags]
    | some parent =>
        rcases hagree parent with ⟨hp', hp⟩ | ⟨p', p, hp', hp, hflags', -⟩
        · simp [effectiveFlags, channel_eq_ok.mpr hc', channel_eq_ok.mpr hc, hparent, htop,
            channel_eq_error hp', channel_eq_error hp, bind, Except.bind]
        · rw [effectiveFlags_of_below hc' (hparent.trans htop) hp',
            effectiveFlags_of_below hc htop hp, hflags']

/-- Freeing a channel leaves every channel where it is. -/
theorem exists_get?_free (child : ChannelId) {id : ChannelId} {c : Channel}
    (h : registry.channels.get? id = some c) :
    ∃ c', (registry.free child).channels.get? id = some c' := by
  unfold free
  split
  · obtain ⟨c', hc'⟩ := Slots.exists_get?_modify _ (Channel.release child) (fun _ => rfl) h
    exact Slots.exists_get?_modify _ Channel.rise (fun _ => rfl) hc'
  · exact ⟨c, h⟩

private theorem attach_eq (parent child : ChannelId) : attach parent child = (do
    let _ ← ask (·.channel parent)
    let channel ← ask (·.channel child)
    let flags ← ask (·.effectiveFlags parent)
    require (flags.has .subchannels) (.unsupported (.subchannels parent))
    require (parent ≠ child) (.badArgument (.attachToItself child))
    require channel.subchannels.isEmpty (.badArgument (.attachParent child))
    require (!(channel.isTop && channel.info.flags.has .default))
      (.badArgument (.attachDefault child))
    match channel.parent with
    | some former => detach former child
    | none => pure ()
    updateChannel child (Channel.sink parent)
    updateChannel parent (Channel.adopt child)) := rfl

private theorem attach_ok {parent child : ChannelId} {p c : Channel}
    (h : Attachable registry parent child p c) :
    attach parent child registry = .ok () (registry.graft parent child) := by
  have hflags := effectiveFlags_of_top h.parentFound h.parentTop
  obtain ⟨c', hchild'⟩ := exists_get?_free child h.childFound
  obtain ⟨p', hparent'⟩ := exists_get?_free child h.parentFound
  obtain ⟨p'', hparent''⟩ := Slots.exists_get?_modify child (Channel.sink parent)
    (fun _ => rfl) hparent'
  have hsteps : (do
      updateChannel child (Channel.sink parent)
      updateChannel parent (Channel.adopt child)) (registry.free child) =
        .ok () (registry.graft parent child) := by
    simp only [bind_apply, updateChannel_ok _ hchild']
    exact updateChannel_ok _ hparent''
  rw [attach_eq]
  simp only [bind_apply, ask_apply, channel_eq_ok.mpr h.parentFound,
    channel_eq_ok.mpr h.childFound, hflags, require_apply, h.takesSubchannels, if_true,
    h.distinct, ne_eq, not_false_eq_true, decide_true, h.childless, List.isEmpty_nil]
  cases hparent : c.parent with
  | none =>
      rw [free_of_top h.childFound hparent] at hsteps
      have htop : c.isTop = true := isTop_iff.mpr hparent
      simpa [htop, h.notDefault hparent] using hsteps
  | some former =>
      rw [free_of_below h.childFound hparent] at hsteps
      have htop : c.isTop = false := by simp [Channel.isTop, hparent]
      have hdetach := (@detach_allOrNothing registry former child).ok
        ⟨c, h.childFound, hparent, h.formerFound⟩
      simpa [htop, hdetach] using hsteps

private theorem attach_error {parent child : ChannelId}
    (h : ¬ ∃ p c, Attachable registry parent child p c) :
    Refused (attach parent child) registry := by
  rw [attach_eq]
  refine .ask_bind fun p hp => .ask_bind fun c hc => .ask_bind fun flags hflags => ?_
  refine .require_bind fun htakes => .require_bind fun hdistinct => ?_
  refine .require_bind fun hchildless => .require_bind fun hdefault => ?_
  rw [channel_eq_ok] at hp hc
  -- What passed the checks can be attached, unless the former parent is missing.
  have htop : p.parent = none := by
    by_contra hbelow
    obtain ⟨q, hq⟩ := Option.ne_none_iff_exists'.mp hbelow
    cases hquestion : registry.channels.get? q with
    | none => simp [effectiveFlags, channel_eq_ok.mpr hp, hq, channel_eq_error hquestion, bind,
        Except.bind] at hflags
    | some d =>
        rw [effectiveFlags_of_below hp hq hquestion] at hflags
        cases hflags
        rw [not_inherits_subchannels] at htakes
        cases htakes
  rw [effectiveFlags_of_top hp htop] at hflags
  cases hflags
  have hformer : ¬ ParentFound registry c := fun hfound => h ⟨p, c,
    { parentFound := hp
      childFound := hc
      parentTop := htop
      takesSubchannels := htakes
      distinct := of_decide_eq_true hdistinct
      childless := List.isEmpty_iff.mp hchildless
      notDefault := fun hnone => by simpa [isTop_iff.mpr hnone] using hdefault
      formerFound := hfound }⟩
  cases hparent : c.parent with
  | none => exact absurd (fun q hq => by rw [hparent] at hq; cases hq) hformer
  | some former =>
      refine .bind ((detach_allOrNothing former child).error ?_)
      rintro ⟨c', hc', -, hfound⟩
      rw [hc] at hc'
      cases hc'
      exact hformer hfound

theorem attach_allOrNothing (parent child : ChannelId) :
    AllOrNothing (attach parent child) registry (∃ p c, Attachable registry parent child p c) ()
      (registry.graft parent child) :=
  ⟨fun ⟨_, _, h⟩ => attach_ok h, attach_error⟩

/-! ## Destroying a channel -/

/-- The registry without a top channel.  Its members are in no channel, its subchannels are top
channels. -/
def remove (id : ChannelId) (c : Channel) (registry : Registry) : Registry :=
  { registry with
    channels := orphan c.subchannels (registry.channels.erase id)
    players := vacate id c.members registry.players }

private theorem destroyChannel_eq (id : ChannelId) : destroyChannel id = (do
    let channel ← ask (·.channel id)
    match channel.parent with
    | some parent => detach parent id
    | none => pure ()
    let channel ← ask (·.channel id)
    modify (remove id channel)
    return channel.subchannels) := rfl

/-- `freed` is what the channel has become when it is taken out. -/
theorem destroyChannel_ok {id : ChannelId} {c freed : Channel}
    (hfound : registry.channels.get? id = some c) (hparents : ParentFound registry c)
    (hfreed : (registry.free id).channels.get? id = some freed) :
    destroyChannel id registry = .ok freed.subchannels ((registry.free id).remove id freed) := by
  rw [destroyChannel_eq]
  cases hparent : c.parent with
  | none =>
      rw [free_of_top hfound hparent] at hfreed ⊢
      rw [hfound] at hfreed
      cases hfreed
      simp [channel_eq_ok.mpr hfound, hparent]
  | some former =>
      have hdetach := (@detach_allOrNothing registry former id).ok
        ⟨c, hfound, hparent, hparents⟩
      rw [free_of_below hfound hparent] at hfreed ⊢
      simp [channel_eq_ok.mpr hfound, hparent, hdetach, channel_eq_ok.mpr hfreed]

theorem destroyChannel_refused {id : ChannelId}
    (h : ¬ ∃ c, registry.channels.get? id = some c ∧ ParentFound registry c) :
    Refused (destroyChannel id) registry := by
  rw [destroyChannel_eq]
  refine .ask_bind fun c hc => ?_
  rw [channel_eq_ok] at hc
  cases hparent : c.parent with
  | none => exact absurd ⟨c, hc, fun q hq => by rw [hparent] at hq; cases hq⟩ h
  | some former =>
      refine .bind ((detach_allOrNothing former id).error ?_)
      rintro ⟨c', hc', -, hfound⟩
      rw [hc] at hc'
      cases hc'
      exact h ⟨c, hc, hfound⟩

/-! ## Reading the channels afterwards -/

theorem get?_unlink (registry : Registry) {parent child : ChannelId} (hne : parent ≠ child)
    (id : ChannelId) :
    (registry.unlink parent child).channels.get? id =
      if id = child then (registry.channels.get? id).map Channel.rise
      else if id = parent then (registry.channels.get? id).map (Channel.release child)
      else registry.channels.get? id := by
  rw [Registry.unlink, Slots.get?_modify _ _ _ Channel.rise fun _ => rfl,
    Slots.get?_modify _ _ _ (Channel.release child) fun _ => rfl]
  grind

theorem ids_unlink (parent child : ChannelId) :
    (registry.unlink parent child).channels.ids = registry.channels.ids := by
  rw [Registry.unlink, Slots.ids_modify _ _ Channel.rise fun _ => rfl,
    Slots.ids_modify _ _ (Channel.release child) fun _ => rfl]

theorem unlink_eq_map (hids : registry.channels.ids.Nodup) {parent child : ChannelId}
    (hne : parent ≠ child) :
    registry.unlink parent child =
      { registry with
        channels := registry.channels.map fun c =>
          if c.id = child then c.rise else if c.id = parent then c.release child else c } := by
  rw [unlink, Slots.modify_modify_eq_map hids hne (Channel.release child) _ fun _ => rfl]
  rfl

theorem get?_link (registry : Registry) {parent child : ChannelId} (hne : parent ≠ child)
    (id : ChannelId) :
    (registry.link parent child).channels.get? id =
      if id = child then (registry.channels.get? id).map (Channel.sink parent)
      else if id = parent then (registry.channels.get? id).map (Channel.adopt child)
      else registry.channels.get? id := by
  rw [Registry.link, Slots.get?_modify _ _ _ (Channel.adopt child) fun _ => rfl,
    Slots.get?_modify _ _ _ (Channel.sink parent) fun _ => rfl]
  grind

theorem ids_link (parent child : ChannelId) :
    (registry.link parent child).channels.ids = registry.channels.ids := by
  rw [Registry.link, Slots.ids_modify _ _ (Channel.adopt child) fun _ => rfl,
    Slots.ids_modify _ _ (Channel.sink parent) fun _ => rfl]

theorem link_eq_map (hids : registry.channels.ids.Nodup) {parent child : ChannelId}
    (hne : parent ≠ child) :
    registry.link parent child =
      { registry with
        channels := registry.channels.map fun c =>
          if c.id = parent then c.adopt child else if c.id = child then c.sink parent else c } := by
  rw [link, Slots.modify_modify_eq_map hids hne.symm (Channel.sink parent) _ fun _ => rfl]
  rfl

theorem get?_orphan (children : List ChannelId) (channels : Slots Channel) (id : ChannelId) :
    (orphan children channels).get? id =
      if id ∈ children then (channels.get? id).map Channel.rise else channels.get? id := by
  induction children generalizing channels with
  | nil => simp [orphan]
  | cons child children ih =>
      have hmodify := Slots.get?_modify channels child id Channel.rise fun _ => rfl
      have hcons : orphan (child :: children) channels =
          orphan children (channels.modify child Channel.rise) := rfl
      rw [hcons, ih, hmodify]
      have hrise : Channel.rise ∘ Channel.rise = Channel.rise := rfl
      by_cases hmem : id ∈ children <;> by_cases hid : id = child <;>
        simp [hmem, hid, Option.map_map, hrise]

theorem ids_orphan (children : List ChannelId) (channels : Slots Channel) :
    (orphan children channels).ids = channels.ids := by
  induction children generalizing channels with
  | nil => rfl
  | cons child children ih =>
      exact (ih (channels.modify child Channel.rise)).trans
        (Slots.ids_modify _ _ Channel.rise fun _ => rfl)

theorem capacity_orphan (children : List ChannelId) (channels : Slots Channel) :
    (orphan children channels).capacity = channels.capacity := by
  induction children generalizing channels with
  | nil => rfl
  | cons child children ih => exact ih (channels.modify child Channel.rise)

/-- Of the listed players, those who note the channel are in no channel afterwards. -/
theorem get?_vacate (id : ChannelId) (members : List PlayerId) (players : Slots Player)
    (who : PlayerId) :
    (vacate id members players).get? who = (players.get? who).map fun p =>
      if who ∈ members ∧ p.channel = some id then { p with channel := none } else p := by
  induction members generalizing players with
  | nil => simp [vacate]
  | cons member members ih =>
      let evict (p : Player) : Player :=
        if p.channel = some id then { p with channel := none } else p
      have hcons : vacate id (member :: members) players =
          vacate id members (players.modify member evict) := rfl
      have hevict (p : Player) : Identified.id (evict p) = Identified.id p := by
        simp only [evict]
        split <;> rfl
      rw [hcons, ih, Slots.get?_modify _ _ _ evict hevict]
      cases players.get? who with
      | none => simp
      | some p =>
          by_cases hwho : who = member <;> by_cases hplace : p.channel = some id <;>
            simp [evict, hwho, hplace]

theorem ids_vacate (id : ChannelId) (members : List PlayerId) (players : Slots Player) :
    (vacate id members players).ids = players.ids := by
  induction members generalizing players with
  | nil => rfl
  | cons member members ih =>
      refine (ih _).trans (Slots.ids_modify _ _ _ fun p => ?_)
      split <;> rfl

theorem capacity_vacate (id : ChannelId) (members : List PlayerId) (players : Slots Player) :
    (vacate id members players).capacity = players.capacity := by
  induction members generalizing players with
  | nil => rfl
  | cons member members ih => exact ih _

theorem get?_remove (hids : registry.channels.ids.Nodup) (id : ChannelId) (c : Channel)
    (id' : ChannelId) :
    (registry.remove id c).channels.get? id' =
      if id' = id then none
      else if id' ∈ c.subchannels then (registry.channels.get? id').map Channel.rise
      else registry.channels.get? id' := by
  rw [remove, get?_orphan, Slots.get?_erase hids]
  grind

theorem ids_remove (id : ChannelId) (c : Channel) :
    (registry.remove id c).channels.ids = (registry.channels.erase id).ids :=
  ids_orphan _ _

/-! ## The default channel -/

/-- The registry with the default flag on one channel, taken from the one that had it. -/
def crown (id : ChannelId) (registry : Registry) : Registry :=
  match registry.defaultChannel with
  | .ok former =>
    if former.id = id then registry
    else
      { registry with
        channels := (registry.channels.modify former.id Channel.resignDefault).modify id
          Channel.crown }
  | .error _ => { registry with channels := registry.channels.modify id Channel.crown }

/-- There is a top channel with this id. -/
def IsTop (registry : Registry) (id : ChannelId) : Prop :=
  ∃ c, registry.channels.get? id = some c ∧ c.parent = none

private theorem setDefault_eq (id : ChannelId) : setDefault id = (do
    let channel ← ask (·.channel id)
    require channel.isTop (.badArgument (.defaultBelowParent id))
    match (← get).defaultChannel with
    | .ok former =>
      if former.id = id then pure () else do
        updateChannel former.id Channel.resignDefault
        updateChannel id Channel.crown
    | .error _ => updateChannel id Channel.crown) := rfl

theorem setDefault_allOrNothing (id : ChannelId) :
    AllOrNothing (setDefault id) registry (IsTop registry id) () (registry.crown id) := by
  rw [setDefault_eq]
  constructor
  · rintro ⟨c, hfound, htop⟩
    simp only [bind_apply, ask_apply, channel_eq_ok.mpr hfound, require_apply, isTop_iff.mpr htop,
      if_true, get_apply, crown]
    cases hdefault : registry.defaultChannel with
    | ok former =>
        by_cases hid : former.id = id
        · simp [hid]
        · obtain ⟨hmem, -, -⟩ := defaultChannel_ok hdefault
          obtain ⟨d, hd⟩ : ∃ d, registry.channels.get? former.id = some d := by
            cases hget : registry.channels.get? former.id with
            | some d => exact ⟨d, rfl⟩
            | none => exact absurd (List.mem_map_of_mem hmem) (Slots.get?_eq_none.mp hget)
          obtain ⟨c', hc'⟩ := Slots.exists_get?_modify former.id Channel.resignDefault
            (fun _ => rfl) hfound
          simp only [hid, if_false, bind_apply, updateChannel_ok _ hd]
          exact updateChannel_ok _ hc'
    | error e => exact updateChannel_ok _ hfound
  · intro h
    refine .ask_bind fun c hc => .require_bind fun htop => ?_
    exact absurd ⟨c, channel_eq_ok.mp hc, isTop_iff.mp htop⟩ h

/-! ## Passwords and metadata -/

/-- What changes top channels only. -/
theorem updateTop_allOrNothing (id : ChannelId) (fault : Fault) (f : Channel → Channel) :
    AllOrNothing (do
        let channel ← ask (·.channel id)
        require channel.isTop fault
        updateChannel id f)
      registry (IsTop registry id) () (registry.withChange id f) := by
  constructor
  · rintro ⟨c, hfound, htop⟩
    simp only [bind_apply, ask_apply, channel_eq_ok.mpr hfound, require_apply, isTop_iff.mpr htop,
      if_true]
    exact updateChannel_ok _ hfound
  · intro h
    refine .ask_bind fun c hc => .require_bind fun htop => ?_
    exact absurd ⟨c, channel_eq_ok.mp hc, isTop_iff.mp htop⟩ h

theorem setPassword_allOrNothing {id : ChannelId} {bytes : List UInt8} {password : Password}
    (hpassword : Password.ofBytes bytes = .ok password) :
    AllOrNothing (setPassword id bytes) registry (IsTop registry id) ()
      (registry.withChange id (Channel.protect password)) :=
  .ask_bind hpassword (updateTop_allOrNothing id _ (Channel.protect password))

theorem setPassword_error {bytes : List UInt8} {fault : Fault}
    (hpassword : Password.ofBytes bytes = .error fault) (id : ChannelId) (registry : Registry) :
    setPassword id bytes registry = .error fault registry := by
  simp only [setPassword, bind_apply, ask_apply, hpassword]

theorem setPassword_refused {id : ChannelId} {bytes : List UInt8} {fault : Fault}
    (hpassword : Password.ofBytes bytes = .error fault) :
    Refused (setPassword id bytes) registry :=
  ⟨fault, setPassword_error hpassword id registry⟩

theorem clearPassword_allOrNothing (id : ChannelId) :
    AllOrNothing (clearPassword id) registry (IsTop registry id) ()
      (registry.withChange id Channel.unprotect) :=
  updateTop_allOrNothing id _ Channel.unprotect

/-- An edit finds no channel, or it replaces the channel by the edited one, or the channel cannot
be edited in this way. -/
theorem editChannel_cases (id : ChannelId) (edit : Channel → Except Fault Channel) :
    (registry.channels.get? id = none ∧ editChannel id edit registry = .ok false registry) ∨
      (∃ c c', registry.channels.get? id = some c ∧ edit c = .ok c' ∧
        editChannel id edit registry = .ok true (registry.withChange id fun _ => c')) ∨
      ∃ c fault, registry.channels.get? id = some c ∧ edit c = .error fault ∧
        editChannel id edit registry = .error fault registry := by
  cases hfound : registry.channels.get? id with
  | none => exact .inl ⟨rfl, by simp [editChannel, hfound]⟩
  | some c =>
      refine .inr ?_
      cases hedit : edit c with
      | ok c' =>
          exact .inl ⟨c, c', rfl, hedit, by
            simp [editChannel, hfound, hedit, modifyChannel, withChange]⟩
      | error fault =>
          exact .inr ⟨c, fault, rfl, hedit, by simp [editChannel, hfound, hedit]⟩

/-! ## The smallest free id -/

/-- With a free id, the channel is added as if it had brought the next one. -/
theorem addChannel_of_next {id : ChannelId} (hnext : registry.channels.Next id) (info : Metadata) :
    addChannel info registry =
      (do addChannelAs id info; return id : Action ChannelId) registry := by
  have hfree : smallestFree? (registry.channels.entries.map (·.id.value.toNat)) maxChannelId =
      some (Numbered.number id) := hnext.smallestFree?
  have hid : (⟨UInt32.ofNat (Numbered.number id)⟩ : ChannelId) = id :=
    Numbered.ofNumber_number id
  simp only [addChannel, bind_apply, get_apply, hfree, hid]

theorem addChannel_of_exhausted (h : registry.channels.Exhausted) (info : Metadata) :
    addChannel info registry = .error (.slotsFull registry.channels.capacity) registry := by
  have hfree : smallestFree? (registry.channels.entries.map (·.id.value.toNat)) maxChannelId =
      none := h.smallestFree?
  simp [addChannel, hfree]

theorem addChannel_allOrNothing {id : ChannelId} (hnext : registry.channels.Next id)
    (info : Metadata) :
    AllOrNothing (addChannel info) registry (Admissible registry id info) id
      (registry.withChannel id info) := by
  have hadds := @addChannelAs_allOrNothing registry id info
  constructor
  · intro hadmissible
    simp [addChannel_of_next hnext, hadds.ok hadmissible]
  · intro hnot
    obtain ⟨fault, herror⟩ := hadds.error hnot
    exact ⟨fault, by simp [addChannel_of_next hnext, herror]⟩

theorem addChannel_givesNext (info : Metadata) :
    GivesNext (addChannel info) registry registry.channels (Admissible registry · info)
      (registry.withChannel · info) where
  next hnext := addChannel_allOrNothing hnext info
  exhausted hexhausted := ⟨_, addChannel_of_exhausted hexhausted info⟩

end Registry

end ChannelServer
