/-!
# Data trees

What a configuration file says, before anybody asks for a setting. The written formats differ in
their spelling and agree on this: truth values, numbers, texts, lists and records.

Numbers with a fraction and moments in time occur in files but no setting takes one, so of them only
their kind is kept.
-/

namespace ChannelServer.Config

/-- A piece of data as a configuration file holds it. -/
inductive Tree where
  | null
  | truth (value : Bool)
  | integer (value : Int)
  /-- A number written with a fraction or an exponent. -/
  | fraction
  | text (value : String)
  /-- A date, a time, or both. -/
  | moment
  | list (items : List Tree)
  | record (fields : List (String × Tree))
deriving Inhabited

end ChannelServer.Config
