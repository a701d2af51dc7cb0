import ChannelServer.Proofs.Import.Outcome
import ChannelServer.Proofs.RoundTrip
import ChannelServer.Registry.Export

/-!
# Copying a registry over the wire

The stream that a registry exports builds the same tree when it is imported into an empty registry
with the same limits.  Nothing of a reachable registry is refused on the way: its metadata is valid,
its ids are distinct and not reserved, there is one default channel at most and it is on top, and
whoever is below a channel is below a top channel that takes subchannels.  So every channel is
accepted, and every accepted one survives.

## Main results

* `survivors_travellers`: an empty registry takes over everything that a sound one exports.
* `copied_imported`: what is then there is a copy.
* `importStream_exportStream`: the same from stream to stream, for reachable registries.
-/

namespace ChannelServer

namespace Registry

/-- The second registry has the channels of the first, as far as the wire carries them. -/
structure Copied (registry copy : Registry) : Prop where
  /-- The same ids are in use, each once. -/
  ids : copy.channels.ids.Perm registry.channels.ids
  channel : ∀ {id c}, registry.channels.get? id = some c →
    ∃ d, copy.channels.get? id = some d ∧ d.parent = c.parent ∧
      d.subchannels.Perm c.subchannels ∧ d.info = c.info.carried
  effectiveFlags : ∀ id, copy.effectiveFlags id = registry.effectiveFlags id

/-- The channels of a registry as they come over the wire, in the order of the export. -/
def travellers (registry : Registry) : List Wire.Entry :=
  registry.exportOrder.map (·.entry.carried)

variable {registry : Registry}

/-! ## The order of the export -/

theorem perm_exportOrder (registry : Registry) :
    registry.exportOrder.Perm registry.channels.entries :=
  List.filter_append_perm _ _

theorem mem_exportOrder {c : Channel} :
    c ∈ registry.exportOrder ↔ c ∈ registry.channels.entries :=
  (perm_exportOrder registry).mem_iff

theorem filter_exportOrder (registry : Registry) :
    registry.exportOrder.filter (·.isTop) = registry.channels.entries.filter (·.isTop) ∧
      registry.exportOrder.filter (!·.isTop) = registry.channels.entries.filter (!·.isTop) := by
  constructor
  · have htops : (registry.channels.entries.filter (·.isTop)).filter (·.isTop) =
        registry.channels.entries.filter (·.isTop) := by simp
    have hbelow : (registry.channels.entries.filter (!·.isTop)).filter (·.isTop) = [] := by simp
    rw [exportOrder, List.filter_append, htops, hbelow, List.append_nil]
  · have htops : (registry.channels.entries.filter (·.isTop)).filter (!·.isTop) = [] := by simp
    have hbelow : (registry.channels.entries.filter (!·.isTop)).filter (!·.isTop) =
        registry.channels.entries.filter (!·.isTop) := by simp
    rw [exportOrder, List.filter_append, htops, hbelow, List.nil_append]

theorem ids_travellers (registry : Registry) :
    registry.travellers.map (·.id) = registry.exportOrder.map (·.id) := by
  rw [travellers, List.map_map]
  rfl

theorem travellers_eq (registry : Registry) :
    registry.travellers = (registry.exportOrder.map (·.entry)).map Wire.Entry.carried := by
  rw [travellers, List.map_map]
  rfl

theorem perm_ids_travellers (registry : Registry) :
    (registry.travellers.map (·.id)).Perm registry.channels.ids := by
  rw [ids_travellers]
  exact (perm_exportOrder registry).map _

theorem nodup_travellers (hforest : Forest registry) : (registry.travellers.map (·.id)).Nodup :=
  (perm_ids_travellers registry).nodup_iff.mpr hforest.distinct

theorem mem_travellers {entry : Wire.Entry} : entry ∈ registry.travellers ↔
    ∃ c ∈ registry.channels.entries, c.entry.carried = entry := by
  simp only [travellers, List.mem_map, mem_exportOrder]

/-! ## Everything is taken over -/

/-- If every entry is accepted after those before it, all of them are. -/
theorem accepted_eq_self {base : Registry} {entries : List Wire.Entry}
    (h : ∀ earlier entry later, entries = earlier ++ entry :: later →
      base.accepts earlier entry = true) : base.accepted entries = entries := by
  have hfoldl (later earlier : List Wire.Entry) (heq : entries = earlier ++ later) :
      later.foldl base.accept earlier = entries := by
    induction later generalizing earlier with
    | nil => rw [List.foldl_nil, heq, List.append_nil]
    | cons entry later ih =>
        have hstep : base.accept earlier entry = earlier ++ [entry] :=
          if_pos (h earlier entry later heq)
        rw [List.foldl_cons, hstep]
        exact ih _ (by rw [heq, List.append_assoc, List.singleton_append])
  exact hfoldl entries [] rfl

theorem accepted_travellers (hsound : Sound registry) :
    (empty registry.limits).accepted registry.travellers = registry.travellers := by
  apply accepted_eq_self
  intro earlier entry later heq
  have hnodup := nodup_travellers hsound.forest
  have hmem : entry ∈ registry.travellers := by
    rw [heq]
    exact List.mem_append_right _ List.mem_cons_self
  obtain ⟨c, hc, rfl⟩ := mem_travellers.mp hmem
  have hfound := Slots.get?_of_mem hsound.forest.distinct hc
  have hchannel := hsound.proper.sound hfound
  have hvalid : c.info.carried.check.isOk = true := by
    rw [Metadata.check_carried hchannel.valid]
    rfl
  have hdistinct {other : Wire.Entry} (hother : other ∈ earlier) :
      other.id ≠ c.entry.carried.id := by
    rw [heq, List.map_append, List.map_cons] at hnodup
    exact (List.nodup_append.mp hnodup).2.2 _ (List.mem_map_of_mem hother) _ List.mem_cons_self
  have hsingle (hdefault : c.info.flags.has .default = true) {other : Wire.Entry}
      (hother : other ∈ earlier) : other.info.flags.has .default = false := by
    obtain ⟨d, hd, rfl⟩ := mem_travellers.mp
      (heq ▸ List.mem_append_left _ hother : other ∈ registry.travellers)
    rw [Bool.eq_false_iff]
    intro hdefault'
    exact hdistinct hother (hsound.proper.single
      (Slots.get?_of_mem hsound.forest.distinct hd) hfound hdefault' hdefault)
  have hroom : earlier.length < registry.limits.channels := by
    have hlength := (perm_ids_travellers registry).length_eq
    have hlimited := hsound.limited.room
    rw [hsound.limited.capacity] at hlimited
    simp only [Slots.ids, List.length_map] at hlength
    rw [heq, List.length_append, List.length_cons] at hlength
    omega
  simp only [accepts, Bool.and_eq_true, decide_eq_true_eq, List.all_eq_true, Bool.or_eq_true,
    Bool.not_eq_true']
  refine ⟨⟨⟨⟨⟨hvalid, hchannel.named⟩, rfl⟩, fun other => hdistinct⟩, ?_⟩, ?_⟩
  · cases hdefault : c.info.flags.has .default with
    | false => exact .inl hdefault
    | true => exact .inr ⟨rfl, fun other => hsingle hdefault⟩
  · have hnothing : (empty registry.limits).channels.size = 0 := rfl
    rw [hnothing, Nat.zero_add]
    exact hroom

/-- The parent of a channel that travels along takes subchannels. -/
theorem bears_travellers (hsound : Sound registry) {id parent : ChannelId} {c : Channel}
    (hc : registry.channels.get? id = some c) (hparent : c.parent = some parent) :
    (empty registry.limits).bears registry.travellers parent = true := by
  obtain ⟨p, hp, hlisted⟩ := (hsound.forest.parent_iff hc parent).mp hparent
  have htop := hsound.forest.parent_top hc hparent hp
  have htakes := hsound.forest.takesSubchannels hp (List.ne_nil_of_mem hlisted)
  have hid : p.id = parent := Slots.id_of_get? hp
  have hmem : p.entry.carried ∈ registry.travellers :=
    mem_travellers.mpr ⟨p, Slots.mem_of_get? hp, rfl⟩
  have hempty : (empty registry.limits).effectiveFlags parent =
      .error (.missing (.channel parent)) := rfl
  simp only [bears, hempty, List.any_eq_true, Bool.and_eq_true, decide_eq_true_eq,
    Option.isNone_iff_eq_none]
  exact ⟨_, hmem, ⟨hid, htop⟩, htakes⟩

/-- An empty registry takes over everything that a sound one exports. -/
theorem survivors_travellers (hsound : Sound registry) :
    (empty registry.limits).survivors registry.travellers = registry.travellers := by
  rw [survivors, accepted_travellers hsound]
  apply List.filter_eq_self.mpr
  intro entry hentry
  obtain ⟨c, hc, rfl⟩ := mem_travellers.mp hentry
  have hfound := Slots.get?_of_mem hsound.forest.distinct hc
  cases hparent : c.parent with
  | none => exact survives_of_top hparent
  | some parent =>
      have hbelow := (hsound.proper.sound hfound).below (by rw [hparent]; exact nofun)
      have hparent' : c.entry.carried.parent = some parent := hparent
      have hdefault : c.entry.carried.info.flags.has .default = false := hbelow
      rw [survives_of_below hparent', hdefault, bears_travellers hsound hfound hparent]
      rfl

/-! ## What is then there -/

/-- The copy of a registry: its channels in the order of the export. -/
theorem entries_imported (hsound : Sound registry) :
    ((empty registry.limits).imported registry.travellers).channels.entries =
      registry.travellers.map fun entry =>
        { id := entry.id
          info := entry.info
          parent := entry.parent
          subchannels := below registry.travellers entry.id } := by
  have hnothing : (empty registry.limits).channels.entries = [] := rfl
  simp only [imported, survivors_travellers hsound, hnothing, List.map_nil, List.nil_append]

theorem ids_imported (hsound : Sound registry) :
    ((empty registry.limits).imported registry.travellers).channels.ids =
      registry.travellers.map (·.id) := by
  rw [Slots.ids, entries_imported hsound, List.map_map]
  rfl

theorem get?_imported (hsound : Sound registry) {id : ChannelId} {c : Channel}
    (hc : registry.channels.get? id = some c) :
    ((empty registry.limits).imported registry.travellers).channels.get? id =
      some
        { id := c.id
          info := c.info.carried
          parent := c.parent
          subchannels := below registry.travellers c.id } := by
  have hid : c.id = id := Slots.id_of_get? hc
  have hnodup : ((empty registry.limits).imported registry.travellers).channels.ids.Nodup := by
    rw [ids_imported hsound]
    exact nodup_travellers hsound.forest
  refine (Slots.get?_eq_some_iff hnodup).mpr ⟨?_, hid⟩
  rw [entries_imported hsound]
  exact List.mem_map.mpr ⟨c.entry.carried, mem_travellers.mpr ⟨c, Slots.mem_of_get? hc, rfl⟩, rfl⟩

/-- Whoever names a channel as the parent is on its list. -/
theorem perm_below (hforest : Forest registry) {id : ChannelId} {c : Channel}
    (hc : registry.channels.get? id = some c) :
    (below registry.travellers id).Perm c.subchannels := by
  have hnodup : (below registry.travellers id).Nodup :=
    (List.filter_sublist.map _).nodup (nodup_travellers hforest)
  rw [List.perm_ext_iff_of_nodup hnodup (hforest.nodup hc)]
  intro child
  simp only [below, List.mem_map, List.mem_filter, mem_travellers, decide_eq_true_eq]
  constructor
  · rintro ⟨_, ⟨⟨d, hd, rfl⟩, hparent⟩, rfl⟩
    have hfound := Slots.get?_of_mem hforest.distinct hd
    obtain ⟨p, hp, hmem⟩ := (hforest.parent_iff hfound id).mp hparent
    rw [hc] at hp
    cases hp
    exact hmem
  · intro hmem
    obtain ⟨d, hd⟩ := hforest.found hc child hmem
    have hparent := hforest.parent_of_mem hc hmem hd
    have hid : d.id = child := Slots.id_of_get? hd
    exact ⟨_, ⟨⟨d, Slots.mem_of_get? hd, rfl⟩, hparent⟩, hid⟩

/-- An import of what a sound registry exports makes a copy of it. -/
theorem copied_imported (hsound : Sound registry) :
    Copied registry ((empty registry.limits).imported registry.travellers) where
  ids := by
    rw [ids_imported hsound]
    exact perm_ids_travellers registry
  channel := by
    intro id c hc
    have hid : c.id = id := Slots.id_of_get? hc
    exact ⟨_, get?_imported hsound hc, rfl, hid ▸ perm_below hsound.forest (hid ▸ hc), rfl⟩
  effectiveFlags := by
    apply effectiveFlags_congr
    intro id
    cases hc : registry.channels.get? id with
    | some c =>
        rw [get?_imported hsound hc]
        rfl
    | none =>
        have hnone : ((empty registry.limits).imported registry.travellers).channels.get? id =
            none := by
          rw [Slots.get?_eq_none, ids_imported hsound, (perm_ids_travellers registry).mem_iff]
          exact Slots.get?_eq_none.mp hc
        rw [hnone]

/-- The copy exports its channels in the order in which they came. -/
theorem travellers_imported (hsound : Sound registry) :
    ((empty registry.limits).imported registry.travellers).exportOrder.map (·.entry) =
      registry.travellers := by
  let arrive (c : Channel) : Channel :=
    { id := c.id
      info := c.info.carried
      parent := c.parent
      subchannels := below registry.travellers c.id }
  have hentries : ((empty registry.limits).imported registry.travellers).channels.entries =
      registry.exportOrder.map arrive := by
    rw [entries_imported hsound, travellers, List.map_map]
    rfl
  obtain ⟨htops, hbelow⟩ := filter_exportOrder registry
  rw [exportOrder, hentries, List.filter_map, List.filter_map]
  have htops' : registry.exportOrder.filter ((·.isTop) ∘ arrive) =
      registry.channels.entries.filter (·.isTop) := htops
  have hbelow' : registry.exportOrder.filter ((!·.isTop) ∘ arrive) =
      registry.channels.entries.filter (!·.isTop) := hbelow
  rw [htops', hbelow', ← List.map_append, List.map_map]
  rfl

/-! ## Over the wire -/

/-- What a stream is that was written channel by channel: the import of these channels. -/
theorem importStream_frames {entries : List Wire.Entry}
    (hvalid : ∀ entry ∈ entries, entry.info.check = .ok ())
    (hparent : ∀ entry ∈ entries, entry.parent ≠ some .reserved) {stream : List UInt8}
    (hstream : Wire.frames Wire.defaultLimit entries = .ok stream) (base : Registry) :
    importStream stream base = importBatch (entries.map Wire.Entry.carried) base := by
  have hcarried : entries.map (.ok ·.received) =
      entries.map (.ok ·.carried : Wire.Entry → Wire.Item) :=
    List.map_congr_left fun entry hentry =>
      congrArg Except.ok (Wire.Entry.received_eq_carried (hvalid entry hentry) (hparent entry hentry))
  have hdrain := Wire.drain_frames (by decide : Wire.defaultLimit < UInt32.size) hvalid hstream
  rw [hcarried] at hdrain
  have hreadable : readable (entries.map (.ok ·.carried)) = entries.map Wire.Entry.carried := by
    rw [readable, List.filterMap_map]
    exact congrFun (List.filterMap_eq_map) entries
  have hunreadable : unreadable (entries.map (.ok ·.carried)) = [] := by
    rw [unreadable, List.filterMap_map]
    exact List.filterMap_eq_nil_iff.mpr fun entry _ => rfl
  have hrest : tailRejection ⟨entries.map (.ok ·.carried), [], none⟩ = [] := rfl
  simp only [importStream, hdrain, hreadable, hunreadable, hrest, List.nil_append, bind_apply]
  cases importBatch (entries.map Wire.Entry.carried) base with
  | ok report registry => rfl
  | error fault registry => rfl

theorem exportStream_eq_ok {stream : List UInt8} : registry.exportStream = .ok stream ↔
    Wire.frames Wire.defaultLimit (registry.exportOrder.map (·.entry)) = .ok stream := by
  unfold exportStream
  cases Wire.frames Wire.defaultLimit (registry.exportOrder.map (·.entry)) with
  | ok stream => simp
  | error fault => simp

/-- Only a channel that is too long for a frame keeps a registry from being exported. -/
theorem exists_exportStream_iff : (∃ stream, registry.exportStream = .ok stream) ↔
    ∀ c ∈ registry.channels.entries, Wire.encodedSize c.info ≤ Wire.defaultLimit := by
  simp only [exportStream_eq_ok]
  rw [Wire.exists_frames_iff, List.forall_mem_map]
  exact forall_congr' fun c => by rw [mem_exportOrder]; rfl

/-- The import of an exported stream takes over what is on the way. -/
theorem importStream_of_exportStream (hsound : Sound registry) {stream : List UInt8}
    (hstream : registry.exportStream = .ok stream) (base : Registry) :
    importStream stream base = importBatch registry.travellers base := by
  have hvalid : ∀ entry ∈ registry.exportOrder.map (·.entry), entry.info.check = .ok () := by
    rw [List.forall_mem_map]
    intro c hc
    exact (hsound.proper.sound
      (Slots.get?_of_mem hsound.forest.distinct (mem_exportOrder.mp hc))).valid
  have hparent : ∀ entry ∈ registry.exportOrder.map (·.entry), entry.parent ≠ some .reserved := by
    rw [List.forall_mem_map]
    intro c hc hreserved
    have hfound := Slots.get?_of_mem hsound.forest.distinct (mem_exportOrder.mp hc)
    obtain ⟨p, hp, -⟩ := (hsound.forest.parent_iff hfound .reserved).mp hreserved
    exact (hsound.proper.sound hp).named (Slots.id_of_get? hp)
  rw [importStream_frames hvalid hparent (exportStream_eq_ok.mp hstream), travellers_eq]

/-- A reachable registry can be exported unless a channel is too long for a frame.  The import of
the stream into an empty registry with the same limits refuses nothing, takes over the top channels
and then the subchannels, each in their order, and leaves a copy.  The copy exports the same
stream, and its metadata is the same too; only that the largest capacity of a default channel comes
back as no limit. -/
theorem importStream_exportStream {store : Store} {limits : Limits} {session : Session}
    (h : Session.Reachable store limits session) :
    ((∃ stream, session.registry.exportStream = .ok stream) ↔
      ∀ c ∈ session.registry.channels.entries, Wire.encodedSize c.info ≤ Wire.defaultLimit) ∧
    ∀ stream, session.registry.exportStream = .ok stream →
      ∃ copy, importStream stream (empty session.registry.limits) =
          .ok
            { imported :=
                (session.registry.channels.entries.filter (·.isTop)).map (·.id) ++
                  (session.registry.channels.entries.filter (!·.isTop)).map (·.id)
              rejected := [] } copy ∧
        Copied session.registry copy ∧
        (∀ id c d, session.registry.channels.get? id = some c → copy.channels.get? id = some d →
          (∃ n, c.info.codec = .ofNumber n) →
          d.info =
            if c.info.flags.has .default = true ∧ c.info.capacity = .limited 65535 then
              { c.info with capacity := .unbounded }
            else c.info) ∧
        copy.exportStream = .ok stream := by
  have hsound := sound_of_reachable h
  refine ⟨exists_exportStream_iff, fun stream hstream => ?_⟩
  have hcopied := copied_imported hsound
  obtain ⟨report, hok, himported, hcomplete⟩ :=
    importBatch_eq (Sound.empty session.registry.limits) session.registry.travellers
  rw [survivors_travellers hsound, ids_travellers] at himported
  have hrejected : report.rejected = [] := by
    rw [himported, travellers, List.length_map, List.length_map] at hcomplete
    exact List.eq_nil_of_length_eq_zero (by omega)
  have hreport : report =
      { imported :=
          (session.registry.channels.entries.filter (·.isTop)).map (·.id) ++
            (session.registry.channels.entries.filter (!·.isTop)).map (·.id)
        rejected := [] } := by
    rw [exportOrder, List.map_append] at himported
    rw [← himported, ← hrejected]
  refine ⟨_, ?_, hcopied, ?_, ?_⟩
  · rw [importStream_of_exportStream hsound hstream, hok, hreport]
  · rintro id c d hc hd ⟨n, hcodec⟩
    obtain ⟨d', hd', -, -, hinfo⟩ := hcopied.channel hc
    rw [hd] at hd'
    cases hd'
    rw [hinfo]
    exact Metadata.carried_eq (hsound.proper.sound hc).valid hcodec
  · rw [exportStream_eq_ok, travellers_imported hsound, travellers_eq, Wire.frames_carried]
    exact exportStream_eq_ok.mp hstream

/-- The largest capacity of a default channel comes back as no limit, and the subchannel that was
first comes back after its parent. -/
theorem importStream_exportStream_of_lobby :
    let lobby : Metadata :=
      { Metadata.preset with flags := Flags.subchannels.union .default, capacity := .limited 65535 }
    let session := (Session.start (.empty {})).run .none
      [.importBatch [⟨⟨2⟩, some ⟨1⟩, .preset⟩, ⟨⟨1⟩, none, lobby⟩]]
    ∃ stream copy, session.registry.exportStream = .ok stream ∧
      importStream stream (.empty {}) = .ok { imported := [⟨1⟩, ⟨2⟩], rejected := [] } copy ∧
      (∃ c, copy.channels.get? ⟨1⟩ = some c ∧ c.info = { lobby with capacity := .unbounded }) ∧
      copy.exportStream = .ok stream := by
  intro lobby session
  obtain ⟨hexport, hcopy⟩ := @importStream_exportStream .none {} session (.step _ .start)
  obtain ⟨stream, hstream⟩ := hexport.mpr (by decide)
  obtain ⟨copy, himport, hcopied, hinfo, hback⟩ := hcopy stream hstream
  have hlimits : session.registry.limits = {} := by decide
  have htops : (session.registry.channels.entries.filter (·.isTop)).map (·.id) = [⟨1⟩] := by
    decide
  have hbelow : (session.registry.channels.entries.filter (!·.isTop)).map (·.id) = [⟨2⟩] := by
    decide
  rw [hlimits, htops, hbelow] at himport
  have hfound : session.registry.channels.get? ⟨1⟩ =
      some ⟨⟨1⟩, lobby, .empty, none, [⟨2⟩], [], []⟩ := by
    decide
  obtain ⟨d, hd, -⟩ := hcopied.channel hfound
  have hunbounded : d.info = { lobby with capacity := .unbounded } :=
    (hinfo ⟨1⟩ _ d hfound hd ⟨11, rfl⟩).trans (if_pos (by decide))
  exact ⟨stream, copy, hstream, himport, ⟨d, hd, hunbounded⟩, hback⟩

end Registry

end ChannelServer
