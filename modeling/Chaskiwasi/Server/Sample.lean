import Chaskiwasi.Server.Step

/-!
# A sample server

A concrete configuration to evaluate runs on.  Its messages are nothing but their From address,
which both parsers read; its services pass text through; and a letter takes one byte.
-/

namespace Chaskiwasi.Sample

/-- The message text of a letter from an address. -/
def letterFrom (addr : String) : List UInt8 :=
  addr.toList.map fun c => UInt8.ofNat c.toNat

def readFrom (data : List UInt8) : String :=
  String.ofList (data.map fun b => Char.ofNat b.toNat)

def pipeline : Pipeline where
  headerFrom := fun data => some (readFrom data)
  readEnvelope := fun data => some { fromAddrs := some [readFrom data] }
  fromMessageID := id
  fromFallback := fun _ _ data => readFrom data
  strip := fun text _ => { body := text }
  normalizeInbound := id
  truncate := fun text => (text, false)

def config : Config where
  pipeline := pipeline
  encodedLength := fun _ => 0

def delivered (uid : UID) (addr : String) : Raw where
  uid := uid
  internalDate := 0
  data := letterFrom addr
  origin := .delivered

/-- A server at rest, with empty folders. -/
def world (table : Table) : World where
  inbox := .empty
  held := .empty
  uidValidity := 1
  table := table
  highWater := 0
  pass := none
  syncs := fun _ => none
  log := []

lemma world_atRest (table : Table) : (world table).AtRest := ⟨rfl, fun _ => rfl, rfl⟩

/-- A step of the pass, or of sync `0`, whose round trip succeeds. -/
def passOk (fresh : UID) : Act := .pass .ok fresh {}

def syncOk : Act := .sync 0 .ok 0

end Chaskiwasi.Sample
