import ChannelServer.Proofs.Framing
import ChannelServer.Proofs.Import.Displaced
import ChannelServer.Proofs.RoundTrip

/-!
# The import of a stream

A stream is read to its end before anything is imported, so its import is the import of the batch
that was read.  What is in the batch, and what is reported besides, follows from the cut of the
stream: a payload holds a channel or is reported without one, and the bytes where reading stops are
reported if there are any.

Reading counts nothing.  It comes to an end because every frame has a length field, also one with
nothing in it, so there are no more frames than the stream has room for length fields.

## Main results

* `importStream_of_cut`: the import of a stream that is cut into payloads.
* `step_importStream`: what this means in every reachable session.
-/

namespace ChannelServer

/-- The channel that a payload holds, if it holds one. -/
def Wire.channel? (payload : List UInt8) : Option Wire.Entry :=
  (Wire.Entry.decodeWhole payload).toOption

namespace Registry

/-- The rejection of a payload that holds no channel. -/
def refusal? (payload : List UInt8) : Option Rejection :=
  match Wire.Entry.decodeWhole payload with
  | .ok _ => none
  | .error fault => some ⟨none, fault⟩

/-- What is wrong with the bytes where reading stops. -/
def tailFault (tail : List UInt8) : Option OversizeFrame → Fault
  | some fault => .badInput (.oversize fault)
  | none => .badInput (.truncated tail.length)

/-- The rejection of the bytes where reading stops.  At the end of the stream there is none. -/
def tailRefusals (tail : List UInt8) (oversize : Option OversizeFrame) : List Rejection :=
  if oversize.isSome ∨ tail ≠ [] then [⟨none, tailFault tail oversize⟩] else []

section Reading

variable {stream tail : List UInt8} {payloads : List (List UInt8)}
  {oversize : Option OversizeFrame}

theorem readable_payloads (payloads : List (List UInt8)) :
    readable (payloads.map Wire.Entry.decodeWhole) = payloads.filterMap Wire.channel? :=
  List.filterMap_map

theorem unreadable_payloads (payloads : List (List UInt8)) :
    unreadable (payloads.map Wire.Entry.decodeWhole) = payloads.filterMap refusal? := by
  rw [unreadable, List.filterMap_map]
  refine List.filterMap_congr fun payload _ => ?_
  rw [Function.comp_apply, refusal?]
  cases Wire.Entry.decodeWhole payload <;> rfl

theorem tailRejection_eq (items : List Wire.Item) (tail : List UInt8)
    (oversize : Option OversizeFrame) :
    tailRejection ⟨items, tail, oversize⟩ = tailRefusals tail oversize := by
  rw [tailRejection, tailRefusals]
  cases oversize with
  | some fault => rfl
  | none => cases tail <;> rfl

/-- The import of a stream is the import of the channels in its payloads.  Only the report has more
in it. -/
theorem importStream_of_cut (hcut : Wire.Cut Wire.defaultLimit stream payloads tail oversize)
    {base after : Registry} {report : ImportReport}
    (hbatch : importBatch (payloads.filterMap Wire.channel?) base = .ok report after) :
    importStream stream base =
      .ok
        { report with
          rejected :=
            payloads.filterMap refusal? ++ tailRefusals tail oversize ++ report.rejected }
        after := by
  have hdrain := Wire.drain_of_cut (by decide : Wire.defaultLimit < UInt32.size) hcut
  simp only [importStream, hdrain, readable_payloads, unreadable_payloads, tailRejection_eq,
    bind_apply, hbatch, pure_apply]

end Reading

end Registry

namespace Session

variable {store : Store} {limits : Limits} {session : Session}

open Registry (refusal? tailRefusals)

/-- A stream falls apart into payloads and a tail in one way, and reading it to the end takes one
look more than it has payloads.  In a reachable session its import leaves what the import of the
channels in the payloads leaves, with the same channels taken over.  The report begins with the
payloads that hold no channel, goes on with the tail if there is one, and ends like that of the
batch. -/
theorem step_importStream (h : Reachable store limits session) (stream : List UInt8) :
    ∃ payloads tail oversize, Wire.Cut Wire.defaultLimit stream payloads tail oversize ∧
      (∀ payloads' tail' oversize',
        Wire.Cut Wire.defaultLimit stream payloads' tail' oversize' →
          payloads = payloads' ∧ tail = tail' ∧ oversize = oversize') ∧
      (∀ looks, Wire.drainWithin Wire.defaultLimit looks stream =
        if payloads.length < looks then some (Wire.drain Wire.defaultLimit stream) else none) ∧
      Wire.lengthFieldSize * payloads.length ≤ stream.length ∧
      ∃ report after,
        session.step store (.importBatch (payloads.filterMap Wire.channel?)) =
          (.ok (.report report), after) ∧
        session.step store (.importStream stream) =
          (.ok (.report
            { imported := report.imported
              rejected :=
                payloads.filterMap refusal? ++ tailRefusals tail oversize ++ report.rejected }),
            after) := by
  have hlimit : Wire.defaultLimit < UInt32.size := by decide
  obtain ⟨payloads, tail, oversize, hcut⟩ := Wire.exists_cut hlimit stream
  obtain ⟨report, hbatch, -, -⟩ := Registry.importBatch_eq (Registry.sound_of_reachable h)
    (payloads.filterMap Wire.channel?)
  have hstream := Registry.importStream_of_cut hcut hbatch
  refine ⟨payloads, tail, oversize, hcut, fun _ _ _ => hcut.unique hlimit, fun looks => ?_,
    hcut.length_le, report, _, step_of_ok hbatch rfl, step_of_ok hstream rfl⟩
  rw [Wire.drainWithin_eq, Wire.drain_of_cut hlimit hcut, List.length_map]

/-- A frame that is too short, a channel, one that names a missing parent, an empty frame and a
length beyond the limit. -/
theorem step_importStream_of_oversize :
    let hall : Wire.Entry := ⟨⟨1⟩, none, .preset⟩
    let stray : Wire.Entry := ⟨⟨2⟩, some ⟨77⟩, .preset⟩
    let stream := [[7], hall.encode, stray.encode, []].flatMap Wire.framed ++ [0, 1, 0, 1, 9]
    ((start (.empty {})).step .none (.importStream stream)).1 =
        .ok (.report
          { imported := [⟨1⟩]
            rejected :=
              [⟨none, .badInput (.channelTooShort 1 Wire.minimumSize)⟩,
                ⟨none, .badInput (.channelTooShort 0 Wire.minimumSize)⟩,
                ⟨none, .badInput (.oversize ⟨65537, 65536⟩)⟩,
                ⟨some ⟨2⟩, .missing (.channel ⟨77⟩)⟩] }) ∧
      Wire.drainWithin Wire.defaultLimit 4 stream = none ∧
      (Wire.drainWithin Wire.defaultLimit 5 stream).isSome := by
  intro hall stray stream
  have hread (entry : Wire.Entry) (hvalid : entry.info.check = .ok ())
      (hsame : entry.received = entry) : Wire.Entry.decodeWhole entry.encode = .ok entry := by
    rw [Wire.Entry.decodeWhole_encode hvalid, hsame]
  have hhall := hread hall rfl (by decide)
  have hstray := hread stray rfl (by decide)
  have hchannels : [[7], hall.encode, stray.encode, []].filterMap Wire.channel? =
      [hall, stray] := by
    simp only [List.filterMap, Wire.channel?, hhall, hstray]
    rfl
  have hrefusals : [[7], hall.encode, stray.encode, []].filterMap refusal? =
      [⟨none, .badInput (.channelTooShort 1 Wire.minimumSize)⟩,
        ⟨none, .badInput (.channelTooShort 0 Wire.minimumSize)⟩] := by
    simp only [List.filterMap, refusal?, hhall, hstray]
    rfl
  have hcut : Wire.Cut Wire.defaultLimit stream [[7], hall.encode, stray.encode, []]
      [0, 1, 0, 1, 9] (some ⟨65537, 65536⟩) :=
    ⟨rfl, by decide +kernel,
      @Wire.Stop.oversize Wire.defaultLimit 65537 [9] (by decide) (by decide)⟩
  have hbatch := @answer_importBatch .none (start (.empty {})) [hall, stray]
    { imported := [⟨1⟩], rejected := [⟨some ⟨2⟩, .missing (.channel ⟨77⟩)⟩] } (by decide +kernel)
  obtain ⟨payloads, tail, oversize, -, honly, hlooks, -, report, after, hstep, hstream⟩ :=
    @step_importStream .none {} _ .start stream
  obtain ⟨rfl, rfl, rfl⟩ := honly _ _ _ hcut
  rw [hchannels] at hstep
  rw [hstep] at hbatch
  cases hbatch
  rw [hrefusals] at hstream
  refine ⟨congrArg Prod.fst hstream, hlooks 4, ?_⟩
  rw [hlooks 5]
  rfl

end Session

end ChannelServer
