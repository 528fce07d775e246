import Hdns.Ports.Schema

/-!
# Publishing DNS-01 challenges

A `provider` answers the ACME server's challenges with TXT record sets of one
zone.  `Present` adds a value to the provider's list for a name under its mutex,
and then sends the list it saw there to Hetzner; `CleanUp` drops the list and
then deletes the record set.  The requests are made after the mutex has been
released.

Several providers work on the same zones.  What is read before a create, an
overwrite or a delete is a request of its own, so the calls of one provider and
those of different providers interleave at every request.

## Main results

* `runFor_present`, `runFor_cleanUp` — the locked step and the requests of a
  call, taken one after the other, are the sequential function.
-/

namespace Hdns.Ports.Challenges

open Hdns.Verified
open Hdns.Verified.GoString
open Hdns.Ports.Schema

/-! ## The provider -/

/-- `dns01.ChallengeInfo`. -/
structure ChallengeInfo where
  fqdn : GoString
  value : GoString
  deriving DecidableEq, Repr

/-- A domain and the key authorization of its challenge. -/
structure Challenge where
  domain : GoString
  keyAuth : GoString
  deriving DecidableEq, Repr

/-- A TXT record set: its zone and its name relative to the zone. -/
@[ext] structure Site where
  zoneID : Int
  name : GoString
  deriving DecidableEq, Repr

/-- `provider`, less its API client; a missing key of `values` reads as the
empty list. -/
structure Provider where
  zoneID : Int
  zone : GoString
  values : GoString → List GoString

/-- `newProvider`. -/
def newProvider (zoneID : Int) (zone : GoString) : Provider :=
  ⟨zoneID, zone, fun _ => []⟩

/-- `relativeName`. -/
def Provider.relativeName (p : Provider) (fqdn : GoString) : GoString :=
  let fqdn := fqdn.trimSuffix "."
  let zone := p.zone.trimSuffix "."
  if fqdn = zone then lit "@"
  else if fqdn.hasSuffix (lit "." ++ zone) then
    fqdn.trimSuffix (lit "." ++ zone)
  else fqdn

/-- `quoteTXTValue`. -/
def quoteTXTValue (v : GoString) : GoString :=
  if 2 ≤ v.length ∧ v.head? = some 0x22 ∧ v.getLast? = some 0x22 then v
  else lit "\"" ++ v ++ lit "\""

/-- `p.values[name] = vals`. -/
def Provider.setValues (p : Provider) (name : GoString)
    (vals : List GoString) : Provider :=
  { p with values := Function.update p.values name vals }

/-! ## The world of the providers -/

section Programs

variable {ι : Type}

/-- The TXT record sets and the providers at work. -/
structure Dns (ι : Type) where
  zones : Zones
  providers : ι → Provider

/-- A function of the providers. -/
abbrev Solving (ι : Type) (α : Type) := Prog Call (Dns ι) GoError α

/-- The zones after one record set has gone. -/
def removeRRSet (z : Zones) (zoneID : Int) (name : GoString) : Zones :=
  fun i n => if i = zoneID ∧ n = name then none else z i n

/-- `Zone.GetRRSetByNameAndType` for TXT. -/
def getTXT (zoneID : Int) (name : GoString) : Solving ι (Option RRSet) :=
  .query .getRRSet .api fun w => .ok (w.zones zoneID name)

/-- `Zone.CreateRRSet`. -/
def createTXT (zoneID : Int) (name : GoString) (new : RRSet) :
    Solving ι Unit :=
  .call .createRRSet .api fun w =>
    match w.zones zoneID name with
    | some _ => (.error (.external "hcloud: RRSet already exists"), w)
    | none => (.ok (), { w with zones := w.zones.set zoneID name new })

/-- `Zone.SetRRSetRecords`. -/
def setTXT (zoneID : Int) (name : GoString) (values : List GoString) :
    Solving ι Unit :=
  .call .setRRSetRecords .api fun w =>
    match w.zones zoneID name with
    | none => (.error (.external "hcloud: RRSet not found"), w)
    | some old =>
        (.ok (), { w with zones := w.zones.set zoneID name ⟨old.ttl, values⟩ })

/-- `Zone.DeleteRRSet`. -/
def deleteTXT (zoneID : Int) (name : GoString) : Solving ι Unit :=
  .call .deleteRRSet .api fun w =>
    match w.zones zoneID name with
    | none => (.error (.external "hcloud: RRSet not found"), w)
    | some _ => (.ok (), { w with zones := removeRRSet w.zones zoneID name })

/-- The lookup of `upsertTXTRecord` and of `deleteTXTRecord`. -/
def findTXT (zoneID : Int) (name : GoString) : Solving ι (Option RRSet) :=
  (getTXT zoneID name).mapError (.because "failed to fetch TXT RRSet")

/-- The second request of `upsertTXTRecord`. -/
def putTXT (zoneID : Int) (name : GoString) (values : List GoString)
    (ttl : Int) (found : Option RRSet) : Solving ι Unit :=
  let records := values.map quoteTXTValue
  match found with
  | none => (createTXT zoneID name ⟨ttl, records⟩).mapError
      (.because "failed to create TXT RRSet")
  | some _ => (setTXT zoneID name records).mapError
      (.because "failed to set TXT RRSet records")

/-- `upsertTXTRecord`. -/
def upsertTXTRecord (zoneID : Int) (name : GoString) (values : List GoString)
    (ttl : Int) : Solving ι Unit := do
  let found ← findTXT zoneID name
  putTXT zoneID name values ttl found

/-- The second request of `deleteTXTRecord`. -/
def dropTXT (zoneID : Int) (name : GoString) : Solving ι Unit :=
  (deleteTXT zoneID name).mapError (.because "failed to delete TXT RRSet")

/-- `deleteTXTRecord`: a missing record set is a success. -/
def deleteTXTRecord (zoneID : Int) (name : GoString) : Solving ι Unit := do
  match ← findTXT zoneID name with
  | none => pure ()
  | some _ => dropTXT zoneID name

variable [DecidableEq ι] (info : GoString → GoString → ChallengeInfo)

/-- The value of a challenge. -/
def Challenge.value (c : Challenge) : GoString :=
  (info c.domain c.keyAuth).value

/-- The record set of a challenge, where a provider publishes it. -/
def Provider.siteOf (p : Provider) (c : Challenge) : Site :=
  ⟨p.zoneID, p.relativeName (info c.domain c.keyAuth).fqdn⟩

/-- What `Present` does under the mutex: the record set and the values. -/
def lockedPresent (k : ι) (c : Challenge) :
    Solving ι (Site × List GoString) := do
  let p := (← Prog.get).providers k
  let site := p.siteOf info c
  let vals := p.values site.name ++ [c.value info]
  Prog.modify fun w => { w with
    providers := Function.update w.providers k (p.setValues site.name vals) }
  pure (site, vals)

/-- What `CleanUp` does under the mutex: the record set. -/
def lockedCleanUp (k : ι) (c : Challenge) : Solving ι Site := do
  let p := (← Prog.get).providers k
  let site := p.siteOf info c
  Prog.modify fun w => { w with
    providers := Function.update w.providers k (p.setValues site.name []) }
  pure site

/-- `Present` of the provider `k`. -/
def present (k : ι) (c : Challenge) : Solving ι Unit := do
  let (site, vals) ← lockedPresent info k c
  upsertTXTRecord site.zoneID site.name vals 60

/-- `CleanUp` of the provider `k`. -/
def cleanUp (k : ι) (c : Challenge) : Solving ι Unit := do
  let site ← lockedCleanUp info k c
  deleteTXTRecord site.zoneID site.name

end Programs

/-! ## The steps of a call -/

/-- Where a call stands. -/
inductive Pc (ι : Type) where
  | idle
  /-- `Present`, before it takes the lock. -/
  | present (k : ι) (c : Challenge)
  /-- `CleanUp`, before it takes the lock. -/
  | cleanUp (k : ι) (c : Challenge)
  /-- `upsertTXTRecord`, before the lookup. -/
  | upsert (k : ι) (site : Site) (vals : List GoString)
  /-- `upsertTXTRecord`, before the create or the overwrite. -/
  | put (k : ι) (site : Site) (vals : List GoString) (found : Option RRSet)
  /-- `deleteTXTRecord`, before the lookup. -/
  | lookup (k : ι) (site : Site)
  /-- `deleteTXTRecord`, before the delete. -/
  | drop (k : ι) (site : Site)
  | returned (r : Except GoError Unit)

section Steps

variable {ι : Type} [DecidableEq ι]
  (info : GoString → GoString → ChallengeInfo)

/-- The locked step of a call, or its next request.  A call that has not
started or has returned has none. -/
def Pc.next : Pc ι → Solving ι (Pc ι)
  | .idle => Prog.throw .noRows
  | .returned _ => Prog.throw .noRows
  | .present k c => do
      let (site, vals) ← lockedPresent info k c
      pure (.upsert k site vals)
  | .cleanUp k c => do
      let site ← lockedCleanUp info k c
      pure (.lookup k site)
  | .upsert k site vals => do
      match ← (findTXT site.zoneID site.name).attempt with
      | .ok found => pure (.put k site vals found)
      | .error err => pure (.returned (.error err))
  | .put _ site vals found => do
      let r ← (putTXT site.zoneID site.name vals 60 found).attempt
      pure (.returned r)
  | .lookup k site => do
      match ← (findTXT site.zoneID site.name).attempt with
      | .ok (some _) => pure (.drop k site)
      | .ok none => pure (.returned (.ok ()))
      | .error err => pure (.returned (.error err))
  | .drop _ site => do
      let r ← (dropTXT site.zoneID site.name).attempt
      pure (.returned r)

/-- At most `n` steps of a call, one after the other. -/
def Pc.runFor : Nat → Pc ι → Solving ι (Pc ι)
  | _, .returned r => pure (.returned r)
  | 0, pc => pure pc
  | n + 1, pc => do
      let pc ← pc.next info
      pc.runFor n

/-- A call that is over. -/
def ended (p : Solving ι Unit) : Solving ι (Pc ι) := do
  let r ← p.attempt
  pure (.returned r)

private theorem runFor_returned (r : Except GoError Unit) (n : Nat) :
    (Pc.returned r : Pc ι).runFor info n = pure (.returned r) := by
  cases n with
  | zero => rfl
  | succ n => rfl

private theorem runFor_upsert (k : ι) (site : Site) (vals : List GoString) :
    (Pc.upsert k site vals).runFor info 2 =
      ended (upsertTXTRecord site.zoneID site.name vals 60) := by
  show ((Pc.upsert k site vals).next info >>= fun pc => pc.runFor info 1) = _
  rw [Pc.next, ended, upsertTXTRecord, Prog.attempt_bind, bind_assoc,
    bind_assoc]
  refine bind_congr fun r => ?_
  cases r with
  | error err => rfl
  | ok found =>
      show ((Pc.put k site vals found).next info >>= fun pc =>
        pc.runFor info 0) = _
      rw [Pc.next, bind_assoc]
      refine bind_congr fun r => ?_
      rw [pure_bind, runFor_returned]

private theorem runFor_lookup (k : ι) (site : Site) :
    (Pc.lookup k site).runFor info 2 =
      ended (deleteTXTRecord site.zoneID site.name) := by
  show ((Pc.lookup k site).next info >>= fun pc => pc.runFor info 1) = _
  rw [Pc.next, ended, deleteTXTRecord, Prog.attempt_bind, bind_assoc,
    bind_assoc]
  refine bind_congr fun r => ?_
  cases r with
  | error err => rfl
  | ok found =>
      cases found with
      | none => rfl
      | some _ =>
          show ((Pc.drop k site).next info >>= fun pc => pc.runFor info 0) = _
          rw [Pc.next, bind_assoc]
          refine bind_congr fun r => ?_
          rw [pure_bind, runFor_returned]

/-- **Refinement.**  The steps of a `Present` that nothing interrupts. -/
theorem runFor_present (k : ι) (c : Challenge) :
    (Pc.present k c).runFor info 3 = ended (present info k c) := by
  -- the locked step does not fail
  have hended : ended (present info k c) = lockedPresent info k c >>=
      fun x => ended (upsertTXTRecord x.1.zoneID x.1.name x.2 60) := rfl
  rw [hended]
  show ((Pc.present k c).next info >>= fun pc => pc.runFor info 2) = _
  rw [Pc.next, bind_assoc]
  refine bind_congr fun x => ?_
  rw [pure_bind]
  exact runFor_upsert info k x.1 x.2

/-- **Refinement.**  The steps of a `CleanUp` that nothing interrupts. -/
theorem runFor_cleanUp (k : ι) (c : Challenge) :
    (Pc.cleanUp k c).runFor info 3 = ended (cleanUp info k c) := by
  have hended : ended (cleanUp info k c) = lockedCleanUp info k c >>=
      fun site => ended (deleteTXTRecord site.zoneID site.name) := rfl
  rw [hended]
  show ((Pc.cleanUp k c).next info >>= fun pc => pc.runFor info 2) = _
  rw [Pc.next, bind_assoc]
  refine bind_congr fun site => ?_
  rw [pure_bind]
  exact runFor_lookup info k site

end Steps

end Hdns.Ports.Challenges
