/-!
# The conversion log

The rows that the CONVERSIONS list keeps, newest first, one for each run of the pipeline. A row is
filed under the bid that the pipeline follows as its first hop and moves with it to a re-bid.
-/

namespace Convert

inductive Status
  | running | done | unwound
  deriving DecidableEq, Repr

structure ConversionRecord where
  id : String
  fromTicker : String
  viaTicker : String
  toTicker : String
  fromAmount : String
  viaAmount : String
  toAmount : String
  startedAt : Nat
  status : Status
  deriving DecidableEq, Repr

/-- The members that an update sets. -/
structure Patch where
  toTicker : Option String := none
  fromAmount : Option String := none
  viaAmount : Option String := none
  toAmount : Option String := none
  status : Option Status := none

def MAX_ENTRIES : Nat := 50

def Patch.apply (p : Patch) (r : ConversionRecord) : ConversionRecord :=
  { r with
    toTicker := p.toTicker.getD r.toTicker
    fromAmount := p.fromAmount.getD r.fromAmount
    viaAmount := p.viaAmount.getD r.viaAmount
    toAmount := p.toAmount.getD r.toAmount
    status := p.status.getD r.status }

/-- What is stored of the rows. -/
def write (rows : List ConversionRecord) : List ConversionRecord := rows.take MAX_ENTRIES

def recordConversionStarted (rec : ConversionRecord) (rows : List ConversionRecord) : List ConversionRecord :=
  if rows.any (·.id == rec.id) then rows else write (rec :: rows)

/-- The rows after the first of the id is patched. -/
def patchFirst (id : String) (p : Patch) : List ConversionRecord → List ConversionRecord
  | [] => []
  | r :: rows => if r.id = id then p.apply r :: rows else r :: patchFirst id p rows

def updateConversion (id : String) (p : Patch) (rows : List ConversionRecord) : List ConversionRecord :=
  if rows.any (·.id == id) then write (patchFirst id p rows) else rows

def followConversionRebid (fromId toId : String) (p : Patch) (rows : List ConversionRecord) :
    List ConversionRecord :=
  if toId = "" then rows
  else if fromId = toId then updateConversion fromId p rows
  else if rows.any (·.id == fromId) then
    write ((rows.filter (·.id != toId)).map fun r => if r.id = fromId then { p.apply r with id := toId } else r)
  else rows

end Convert
