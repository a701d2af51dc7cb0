/-!
# Voice codecs

The codec a channel asks its members to speak. The wire carries a 16-bit number of which thirteen
are known; any other number is kept, so that it can be sent on.
-/

namespace ChannelServer

/-- A voice codec, named by its family and its rate in kbit/s. -/
inductive Codec where
  | celp5_1
  | celp6_3
  | gsm14_8
  | gsm16_4
  | celpWindows5_2
  | speex3_4
  | speex5_2
  | speex7_2
  | speex9_3
  | speex12_3
  | speex16_3
  | speex19_5
  | speex25_9
  | unknown (number : UInt16)
deriving DecidableEq, Repr, Inhabited

namespace Codec

/-- The known codecs in the order of their numbers. -/
def known : List Codec :=
  [celp5_1, celp6_3, gsm14_8, gsm16_4, celpWindows5_2, speex3_4, speex5_2, speex7_2, speex9_3,
    speex12_3, speex16_3, speex19_5, speex25_9]

/-- The number of a codec. -/
def number : Codec → UInt16
  | celp5_1 => 0
  | celp6_3 => 1
  | gsm14_8 => 2
  | gsm16_4 => 3
  | celpWindows5_2 => 4
  | speex3_4 => 5
  | speex5_2 => 6
  | speex7_2 => 7
  | speex9_3 => 8
  | speex12_3 => 9
  | speex16_3 => 10
  | speex19_5 => 11
  | speex25_9 => 12
  | unknown n => n

/-- The codec of a number. Never `unknown` for a number that has a name. -/
def ofNumber (n : UInt16) : Codec :=
  known[n.toNat]?.getD (unknown n)

/-- The written form of a codec. -/
def name : Codec → String
  | celp5_1 => "Celp5_1"
  | celp6_3 => "Celp6_3"
  | gsm14_8 => "Gsm14_8"
  | gsm16_4 => "Gsm16_4"
  | celpWindows5_2 => "CelpWindows5_2"
  | speex3_4 => "Speex3_4"
  | speex5_2 => "Speex5_2"
  | speex7_2 => "Speex7_2"
  | speex9_3 => "Speex9_3"
  | speex12_3 => "Speex12_3"
  | speex16_3 => "Speex16_3"
  | speex19_5 => "Speex19_5"
  | speex25_9 => "Speex25_9"
  | unknown n => s!"Unbekannt({n})"

end Codec

end ChannelServer
