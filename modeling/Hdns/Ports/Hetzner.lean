import Hdns.Ports.Schema

/-!
# A record sets at Hetzner

`UpdateRecord` creates or overwrites the A record set of a record and then
stores which address it was given.  The two halves are separate external calls,
so the second can fail after the first has taken effect, and a request can take
effect although its reply is lost.

Every write appends a `writeA` event.  The parameter `addr` of
`upsertResourceRecordSet` is there for that event only.
-/

namespace Hdns.Ports.Hetzner

open Hdns.Verified
open Hdns.Verified.GoString
open Hdns.Ports.Schema

/-- `clientForRecord`: the token the API client is built with. -/
def clientForRecord (env : Env) (r : Record) : Except GoError GoString :=
  if env.encryptionKey.length ≠ 32 then
    .error (.newError "invalid token encryption key")
  else
    (env.decrypt env.encryptionKey r.token).mapError
      (.because "failed to decrypt record token")

/-- The A record set of a record. -/
def rrset (w : World) (r : Record) : Option RRSet := w.zones r.zoneID r.name

/-- `findResourceRecordSet`. -/
def findResourceRecordSet (r : Record) : Handler (Option RRSet) :=
  (Prog.query .getRRSet .api fun w => .ok (rrset w r)).mapError
    (.because "failed to fetch RRSet")

/-- `FetchRecord`. -/
def fetchRecord (env : Env) (r : Record) : Handler (Option RRSet) := do
  let _ ← Prog.ofExcept ((clientForRecord env r).mapError .wrap)
  findResourceRecordSet r

/-- The world after the record set of `r` has become `new`. -/
def write (r : Record) (addr : Address) (new : RRSet) (w : World) : World :=
  { w with
    zones := w.zones.set r.zoneID r.name new
    events := w.events ++ [.writeA r addr (rrset w r) new] }

/-- `Zone.CreateRRSet`: creating an existing record set is an error. -/
def createRRSet (r : Record) (addr : Address) (new : RRSet) (w : World) :
    Except GoError Unit × World :=
  match rrset w r with
  | some _ => (.error (.external "hcloud: RRSet already exists"), w)
  | none => (.ok (), write r addr new w)

/-- `Zone.SetRRSetRecords`: the values are replaced, the TTL stays. -/
def setRRSetRecords (r : Record) (addr : Address) (values : List GoString)
    (w : World) : Except GoError Unit × World :=
  match rrset w r with
  | none => (.error (.external "hcloud: RRSet not found"), w)
  | some old => (.ok (), write r addr ⟨old.ttl, values⟩ w)

/-- `upsertResourceRecordSet`. -/
def upsertResourceRecordSet (r : Record) (addr : Address) (ip : GoString) :
    Handler Unit := do
  let found ← (findResourceRecordSet r).mapError .wrap
  match found with
  | none =>
      (Prog.call .createRRSet .api
        (createRRSet r addr ⟨r.ttl.toInt, [ip]⟩)).mapError
        (.because "failed to create RRSet")
  | some _ =>
      (Prog.call .setRRSetRecords .api (setRRSetRecords r addr [ip])).mapError
        (.because "failed to set RRSet records")

/-- The statement `UpdateRecordAddress`, with the foreign key of the column. -/
def updateRecordAddress (addressID : Int) (id : Int) : Handler Unit :=
  .call .updateRecordAddress .driver fun w =>
    if (w.addresses.find? addressID).isNone ∧ (w.records.find? id).isSome then
      (.error (.external "Error 1452: foreign key constraint fails"), w)
    else
      (.ok (), { w with
        records := w.records.updateWhere (fun r => r.id == id) fun r =>
          { r with addressID := some addressID } })

/-- `UpdateRecord`.  The Go function sets `r.AddressID` through its pointer;
here the record is returned. -/
def updateRecord (env : Env) (r : Record) (addr : Address) :
    Handler Record := do
  let _ ← Prog.ofExcept ((clientForRecord env r).mapError .wrap)
  (upsertResourceRecordSet r addr addr.ipv4.string).mapError .wrap
  let r := { r with addressID := some addr.id }
  (updateRecordAddress addr.id r.id).mapError fun err =>
    .because (lit "failed to update DNS record " ++ r.name ++ lit "." ++
      r.domain ++ lit " in database") err.wrap
  pure r

/-! ## What the requests touch -/

section Keeps

variable {o : Oracle Call} {R : World → World → Prop} (hrefl : ∀ w, R w w)
  (htrans : ∀ w₁ w₂ w₃, R w₁ w₂ → R w₂ w₃ → R w₁ w₃) (env : Env)
include hrefl htrans

theorem fetchRecord_keeps (r : Record) :
    Prog.Keeps o R (fetchRecord env r) :=
  .bind htrans (.ofExcept hrefl _) fun _ => .mapError (.query hrefl) _

/-- A request writes the value it is given, or nothing. -/
theorem upsertResourceRecordSet_keeps {r : Record} {addr : Address}
    {ip : GoString}
    (hwrite : ∀ w new, new.values = [ip] → R w (write r addr new w)) :
    Prog.Keeps o R (upsertResourceRecordSet r addr ip) := by
  refine .bind htrans (.mapError (.mapError (.query hrefl) _) _) fun found => ?_
  cases found with
  | none =>
      refine .mapError (.call hrefl fun w => ?_) _
      unfold createRRSet
      split
      · exact hrefl w
      · exact hwrite w _ rfl
  | some _ =>
      refine .mapError (.call hrefl fun w => ?_) _
      unfold setRRSetRecords
      split
      · exact hrefl w
      · exact hwrite w _ rfl

theorem updateRecord_keeps {r : Record} {addr : Address}
    (hwrite : ∀ w new, new.values = [addr.ipv4.string] →
      R w (write r addr new w))
    (haddress : Prog.Keeps o R (updateRecordAddress addr.id r.id)) :
    Prog.Keeps o R (updateRecord env r addr) := by
  refine .bind htrans (.ofExcept hrefl _) fun _ => ?_
  refine .bind htrans (.mapError
    (upsertResourceRecordSet_keeps hrefl htrans hwrite) _) fun _ => ?_
  exact .bind htrans (.mapError haddress _) fun _ => .pure hrefl _

end Keeps

end Hdns.Ports.Hetzner
