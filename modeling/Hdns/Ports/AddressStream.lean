import Hdns.Ports.CertificateReports
import Hdns.Ports.UpdateAddressRace

/-!
# Following the current address

`StreamAddress` polls the current row and sends it when its id is not the one it
sent last; the page shows what it is sent.  The calls of `UpdateAddress` go on
meanwhile, and between the reset and the insert of one of them no row is current.

## Main results

* `getAddressHistory_ok` — what `GetAddressHistory` answers with.
* `stream_follows_addresses` — while the inserts are serial, a stream sends every
  row at most once and in the order of the rows, all of them rows of the history;
  after a poll that succeeds, the row it sent last is the current one.
* `racing_updates_repeat_addresses` — without the condition, a row is sent twice.
-/

namespace Hdns.Ports.AddressStream

open Hdns.Verified
open Hdns.Ports.Schema
open Hdns.Ports.UpdateAddress
open Hdns.Ports.UpdateAddressRace (Pc race issue currentRows scanRow Serial
  KeepsOne LeavesOne AllReturned)
open Hdns.Ports.Records
open Hdns.Ports.CertificateReports

/-! ## The handlers -/

/-- The error of a failed fetch, as the handlers return it. -/
def fetchError (err : GoError) : GoError :=
  .wrap (.because "failed to fetch current address from database" err)

/-- `GetAddress`. -/
def getAddress : Handler AddressProto := do
  let address ← getCurrentAddress.mapError fetchError
  pure (Address.toProto address)

/-- `GetAddressHistory`. -/
def getAddressHistory : Handler (List AddressProto) := do
  let addresses ← listAddresses.mapError fun err =>
    .wrap (.because "failed to fetch address history from database" err)
  pure (addresses.map Address.toProto)

/-- The history: every row, the newest first. -/
def history (t : Table Address) : List AddressProto :=
  t.rows.reverse.map Address.toProto

theorem getAddressHistory_ok {o : Oracle Call} {s : Sys World} :
    getAddressHistory.wpOk o s fun list t =>
      t.state = s.state ∧ list = history s.state.addresses := by
  refine Prog.wpOk_bind (Prog.wpOk_mapError (Prog.wpOk_query
    fun rows hrows => Prog.wpOk_pure ⟨rfl, ?_⟩))
  obtain rfl := Except.ok.inj hrows
  rfl

/-! ## The machine -/

/-- Where a call of `StreamAddress` stands: in its loop, with the id of
`current`, or returned. -/
inductive Stream where
  | following (current : Option Int)
  | ended (r : Except GoError Unit)

/-- The calls of `UpdateAddress` and the table, a stream, and what it has
sent. -/
structure State where
  race : UpdateAddressRace.State
  stream : Stream
  sent : List AddressProto

/-- A new stream beside a table that no call is at work on. -/
def start (t : Table Address) : State :=
  ⟨UpdateAddressRace.start t, .following none, []⟩

/-- A label: a step of the calls, a round of the loop, with what the database
does to it and which of several current rows it meets first, or the end of the
stream's context. -/
inductive Label where
  | update (a : UpdateAddressRace.Label)
  | poll (fault : Fault) (pick : Nat)
  | done

/-- A round of the loop. -/
def State.polled (s : State) (fault : Fault) (pick : Nat)
    (current : Option Int) : State :=
  match fault with
  | .none =>
      match scanRow s.race.table pick with
      | none => { s with stream := .ended (.error (fetchError .noRows)) }
      | some address =>
          if current = some address.id then s
          else { s with
            stream := .following (some address.id)
            sent := s.sent ++ [Address.toProto address] }
  | _ => { s with stream := .ended (.error (fetchError .driver)) }

/-- The machine of a stream beside concurrent calls. -/
def streaming (collate : GoString → GoString) : Machine State Label where
  step s
    | .update a =>
        ((race collate).step s.race a).map fun r => { s with race := r }
    | .poll fault pick =>
        match s.stream with
        | .following current => some (s.polled fault pick current)
        | .ended _ => none
    | .done =>
        match s.stream with
        | .following _ => some { s with stream := .ended (.ok ()) }
        | .ended _ => none

/-- The inserts of the calls are serial. -/
def InOrder (s : State) : Label → Prop
  | .update a => Serial s.race a
  | _ => True

/-! ## What a statement does to the rows -/

/-- A row is there with the texts of another one. -/
def SameTexts (a b : Address) : Prop :=
  b.id = a.id ∧ b.ipv4 = a.ipv4 ∧ b.ipv6 = a.ipv6

/-- Rows stay, but for the column `current`, and a row that becomes current is
new. -/
structure Grows (t t' : Table Address) : Prop where
  kept : ∀ a ∈ t.rows, ∃ b ∈ t'.rows, SameTexts a b
  fresh : ∀ c ∈ currentRows t', c ∈ currentRows t ∨ t.next ≤ c.id

theorem Grows.refl (t : Table Address) : Grows t t :=
  ⟨fun a ha => ⟨a, ha, rfl, rfl, rfl⟩, fun _ hc => .inl hc⟩

theorem grows_resetCurrent (t : Table Address) : Grows t (resetCurrent t) where
  kept := by
    intro a ha
    refine ⟨if a.current then { a with current := false } else a,
      List.mem_map_of_mem ha, ?_⟩
    split
    · exact ⟨rfl, rfl, rfl⟩
    · exact ⟨rfl, rfl, rfl⟩
  fresh := by
    intro c hc
    rw [currentRows, filter_current_resetCurrent] at hc
    exact absurd hc List.not_mem_nil

theorem grows_insertAddress (collate : GoString → GoString)
    (ipv4 ipv6 : NullString) (t : Table Address) :
    Grows t (insertAddress collate ipv4 ipv6 true t).2 := by
  rcases insertAddress_cases collate ipv4 ipv6 true t
    with ⟨err, h⟩ | ⟨_, h⟩ | ⟨_, h⟩
  · rw [h]
    exact Grows.refl t
  · rw [h]
    exact ⟨(Grows.refl t).kept, fun _ hc => .inl hc⟩
  · rw [h]
    refine ⟨fun a ha => ⟨a, List.mem_append_left _ ha, rfl, rfl, rfl⟩, ?_⟩
    intro c hc
    obtain ⟨hrow, hcurrent⟩ := List.mem_filter.mp hc
    rcases List.mem_append.mp hrow with hold | hnew
    · exact .inl (List.mem_filter.mpr ⟨hold, hcurrent⟩)
    · rw [List.mem_singleton.mp hnew]
      exact .inr (Int.le_refl _)

theorem issue_grows {collate : GoString → GoString} {fault : Fault} {pick : Nat}
    {t t' : Table Address} {pc pc' : Pc}
    (h : issue collate fault pick t pc = some (t', pc')) : Grows t t' := by
  cases pc with
  | idle => cases h
  | returned r => cases h
  | scan p =>
      cases fault with
      | none =>
          simp only [issue] at h
          split at h
          · cases h; exact Grows.refl t
          · cases h; exact Grows.refl t
      | fails => cases h; exact Grows.refl t
      | lostReply => cases h; exact Grows.refl t
  | reset p =>
      cases fault with
      | none => cases h; exact grows_resetCurrent t
      | fails => cases h; exact Grows.refl t
      | lostReply => cases h; exact grows_resetCurrent t
  | create p =>
      have hins := grows_insertAddress collate (nullString p.ipv4)
        (nullString p.ipv6) t
      cases fault with
      | none =>
          simp only [issue] at h
          split at h
          · cases h; exact hins
          · cases h; exact hins
      | fails => cases h; exact Grows.refl t
      | lostReply => cases h; exact hins
  | reread p =>
      cases fault with
      | none =>
          simp only [issue] at h
          split at h
          · cases h; exact Grows.refl t
          · cases h; exact Grows.refl t
      | fails => cases h; exact Grows.refl t
      | lostReply => cases h; exact Grows.refl t

/-- A step of the calls keeps the rows. -/
theorem race_grows {collate : GoString → GoString}
    {s s' : UpdateAddressRace.State} {a : UpdateAddressRace.Label}
    (h : (race collate).step s a = some s') : Grows s.table s'.table := by
  rcases UpdateAddressRace.race_step_cases h with
    ⟨i, p, rfl, hidle, rfl⟩ | ⟨i, fault, pick, t, pc, rfl, hissue, rfl⟩
  · exact Grows.refl _
  · exact issue_grows hissue

/-! ## What the stream has sent -/

/-- A message is about a row of the table. -/
def Message (t : Table Address) (m : AddressProto) : Prop :=
  ∃ a ∈ t.rows, a.id = m.id ∧ a.ipv4.string = m.ipv4 ∧ a.ipv6.string = m.ipv6

theorem Message.grows {t t' : Table Address} {m : AddressProto}
    (h : Message t m) (hgrows : Grows t t') : Message t' m := by
  obtain ⟨a, ha, hid, hipv4, hipv6⟩ := h
  obtain ⟨b, hb, hid', hipv4', hipv6'⟩ := hgrows.kept a ha
  exact ⟨b, hb, by rw [hid', hid], by rw [hipv4', hipv4], by rw [hipv6', hipv6]⟩

/-- The id of the last message. -/
def State.lastSent (s : State) : Option Int := (s.sent.map (·.id)).getLast?

/-- The stream is in step with the table: it has sent rows in their order, none
of them is newer than the current one, and `current` is the last of them. -/
structure InStep (s : State) : Prop where
  keeps : KeepsOne s.race
  leaves : LeavesOne s.race
  increasing : (s.sent.map (·.id)).Pairwise (· < ·)
  messages : ∀ m ∈ s.sent, Message s.race.table m
  behind : ∀ m ∈ s.sent, ∀ c ∈ currentRows s.race.table, m.id ≤ c.id
  remembers : ∀ current, s.stream = .following current → current = s.lastSent

/-- The greatest element of an increasing list is its last. -/
theorem getLast?_of_le {l : List Int} (h : l.Pairwise (· < ·)) {x : Int}
    (hx : x ∈ l) (hle : ∀ y ∈ l, y ≤ x) : l.getLast? = some x := by
  rcases List.eq_nil_or_concat l with rfl | ⟨l', y, rfl⟩
  · simp at hx
  · rw [List.concat_eq_append] at h hx hle ⊢
    have hy : y ≤ x := hle y (by simp)
    rcases List.mem_append.mp hx with hold | hlast
    · have hlt : x < y := (List.pairwise_append.mp h).2.2 x hold y (by simp)
      omega
    · rw [List.mem_singleton.mp hlast]
      simp

section InStep

variable {collate : GoString → GoString} {s s' : State}

theorem inStep_start {t : Table Address} (h : (currentRows t).length ≤ 1) :
    InStep (start t) where
  keeps := UpdateAddressRace.keepsOne_start h
  leaves := UpdateAddressRace.leavesOne_start t
  increasing := .nil
  messages := fun m hm => absurd hm List.not_mem_nil
  behind := fun m hm => absurd hm List.not_mem_nil
  remembers := by
    intro current hcurrent
    exact (Stream.following.inj hcurrent).symm

/-- A step of the calls. -/
theorem InStep.update {r : UpdateAddressRace.State}
    {a : UpdateAddressRace.Label} (h : InStep s)
    (hserial : Serial s.race a) (hstep : (race collate).step s.race a = some r) :
    InStep { s with race := r } where
  keeps := UpdateAddressRace.keepsOne_step _ _ _ h.keeps hserial hstep
  leaves := UpdateAddressRace.leavesOne_step _ _ _ h.leaves hstep
  increasing := h.increasing
  messages := fun m hm => (h.messages m hm).grows (race_grows hstep)
  behind := by
    intro m hm c hc
    rcases (race_grows hstep).fresh c hc with hold | hnew
    · exact h.behind m hm c hold
    · -- the row is newer than every row a message was about
      obtain ⟨row, hrow, hid, -⟩ := h.messages m hm
      have hlt : row.id < s.race.table.next := s.race.table.fresh row hrow
      omega
  remembers := h.remembers

/-- The row a poll reads is the only current one. -/
theorem KeepsOne.scan {r : UpdateAddressRace.State} (h : KeepsOne r) {pick : Nat}
    {a : Address} (hscan : scanRow r.table pick = some a) :
    currentRows r.table = [a] := by
  have hmem : a ∈ currentRows r.table := List.mem_of_getElem? hscan
  have hone := h.atMostOne
  match hrows : currentRows r.table with
  | [] => simp [hrows] at hmem
  | [b] =>
      rw [hrows] at hmem
      rw [List.mem_singleton.mp hmem]
  | b :: c :: rest => simp [hrows] at hone

/-- A round of the loop that sends nothing, or the end of the stream. -/
theorem InStep.ended {r : Except GoError Unit} (h : InStep s) :
    InStep { s with stream := .ended r } :=
  ⟨h.keeps, h.leaves, h.increasing, h.messages, h.behind,
    fun current hcurrent => by cases hcurrent⟩

/-- A round of the loop that sends the current row. -/
theorem InStep.sent {current : Option Int} {a : Address} (h : InStep s)
    (hstream : s.stream = .following current)
    (hcurrent : currentRows s.race.table = [a]) (hnew : current ≠ some a.id) :
    InStep { s with
      stream := .following (some a.id)
      sent := s.sent ++ [Address.toProto a] } := by
  have hrow : a ∈ s.race.table.rows :=
    List.mem_of_mem_filter (hcurrent ▸ List.mem_singleton_self a)
  have hlast : s.lastSent ≠ some a.id := h.remembers current hstream ▸ hnew
  -- no message is about the row: it would be the last one
  have hbelow : ∀ m ∈ s.sent, m.id < a.id := by
    intro m hm
    have hle : m.id ≤ a.id :=
      h.behind m hm a (hcurrent ▸ List.mem_singleton_self a)
    have hne : m.id ≠ a.id := by
      intro heq
      refine hlast (getLast?_of_le h.increasing ?_ ?_)
      · exact heq ▸ List.mem_map_of_mem hm
      · intro i hi
        obtain ⟨m', hm', rfl⟩ := List.mem_map.mp hi
        exact h.behind m' hm' a (hcurrent ▸ List.mem_singleton_self a)
    omega
  refine ⟨h.keeps, h.leaves, ?_, ?_, ?_, ?_⟩
  · rw [List.map_append, List.pairwise_append]
    refine ⟨h.increasing, List.pairwise_singleton _ _, ?_⟩
    intro i hi j hj
    obtain ⟨m, hm, rfl⟩ := List.mem_map.mp hi
    rw [List.map_singleton, List.mem_singleton] at hj
    rw [hj]
    exact hbelow m hm
  · intro m hm
    rcases List.mem_append.mp hm with hold | hlast
    · exact h.messages m hold
    · rw [List.mem_singleton.mp hlast]
      exact ⟨a, hrow, rfl, rfl, rfl⟩
  · intro m hm c hc
    rw [hcurrent, List.mem_singleton] at hc
    rw [hc]
    rcases List.mem_append.mp hm with hold | hlast
    · exact Int.le_of_lt (hbelow m hold)
    · rw [List.mem_singleton.mp hlast]
      exact Int.le_refl _
  · intro id hid
    obtain rfl := Stream.following.inj hid
    simp [State.lastSent, Address.toProto]

/-- **Step lemma.** -/
theorem inStep_step (s : State) (a : Label) (s' : State) (h : InStep s)
    (horder : InOrder s a) (hstep : (streaming collate).step s a = some s') :
    InStep s' := by
  cases a with
  | update a =>
      simp only [streaming, Option.map_eq_some_iff] at hstep
      obtain ⟨r, hr, rfl⟩ := hstep
      exact h.update horder hr
  | poll fault pick =>
      simp only [streaming] at hstep
      cases hstream : s.stream with
      | ended r => simp [hstream] at hstep
      | following current =>
          rw [hstream] at hstep
          obtain rfl := Option.some.inj hstep
          unfold State.polled
          cases fault with
          | none =>
              cases hscan : scanRow s.race.table pick with
              | none => exact h.ended
              | some a =>
                  dsimp only
                  split
                  · exact h
                  · next hnew =>
                    exact h.sent hstream (KeepsOne.scan h.keeps hscan) hnew
          | fails => exact h.ended
          | lostReply => exact h.ended
  | done =>
      simp only [streaming] at hstep
      cases hstream : s.stream with
      | ended r => simp [hstream] at hstep
      | following current =>
          rw [hstream] at hstep
          obtain rfl := Option.some.inj hstep
          exact h.ended

/-- After a poll that has succeeded the last message is about the current
row. -/
theorem InStep.polled {current : Option Int} (h : InStep s)
    (hstream : s.stream = .following current) {pick : Nat} {c : Address}
    (hcurrent : c ∈ currentRows s.race.table) :
    (s.polled .none pick current).lastSent = some c.id := by
  have hscan : ∃ a, scanRow s.race.table pick = some a := by
    have hpos := List.length_pos_of_mem hcurrent
    exact ⟨_, List.getElem?_eq_getElem (Nat.mod_lt _ hpos)⟩
  obtain ⟨a, ha⟩ := hscan
  have hrows := KeepsOne.scan h.keeps ha
  obtain rfl : c = a := by simpa [hrows] using hcurrent
  simp only [State.polled, ha]
  split
  · next hsame => rw [← hsame, h.remembers current hstream]
  · simp [State.lastSent, Address.toProto]

/-- Once all calls have returned without error, a row is current. -/
theorem InStep.settled (h : InStep s) (hstarted : ∃ i, s.race.threads i ≠ .idle)
    (hall : AllReturned s.race) : ∃ c, currentRows s.race.table = [c] := by
  have hsome : currentRows s.race.table ≠ [] := by
    apply h.leaves
    · intro j hfailed
      obtain ⟨err, herr⟩ := hfailed
      rcases hall j with hj | ⟨a, hj⟩ <;> simp [hj] at herr
    · intro j hinserting
      obtain ⟨p, hp⟩ := hinserting
      rcases hall j with hj | ⟨a, hj⟩ <;> simp [hj] at hp
    · obtain ⟨i, hi⟩ := hstarted
      exact ⟨i, .inr ((hall i).resolve_left hi)⟩
  have hone := h.keeps.atMostOne
  match hrows : currentRows s.race.table with
  | [] => exact absurd hrows hsome
  | [c] => exact ⟨c, rfl⟩
  | b :: c :: rest => simp [hrows] at hone

end InStep

/-! ## The main result -/

/-- **A stream follows the current address.**  In every run whose inserts are
serial, the stream sends rows in the order they were inserted and none of them
twice, every message is about a row of the history, and after a poll that finds
a current row the last message is about it.  There is such a row once at least
one call was started and all have returned without error. -/
theorem stream_follows_addresses (collate : GoString → GoString)
    (t : Table Address) (as : List Label) (s : State)
    (hone : (currentRows t).length ≤ 1)
    (hrun : (streaming collate).run (start t) as = some s)
    (hserial : (streaming collate).Along InOrder (start t) as) :
    (s.sent.map (·.id)).Pairwise (· < ·) ∧
      (∀ m ∈ s.sent, ∃ h ∈ history s.race.table,
        h.id = m.id ∧ h.ipv4 = m.ipv4 ∧ h.ipv6 = m.ipv6) ∧
      (∀ pick s', (streaming collate).step s (.poll .none pick) = some s' →
        ∀ c ∈ currentRows s.race.table, s'.lastSent = some c.id) ∧
      ((∃ i, s.race.threads i ≠ .idle) → AllReturned s.race →
        ∃ c, currentRows s.race.table = [c]) := by
  have h : InStep s := Machine.invariant_along inStep_step as (start t) s
    (inStep_start hone) hserial hrun
  refine ⟨h.increasing, ?_, ?_, h.settled⟩
  · intro m hm
    obtain ⟨a, ha, hsame⟩ := h.messages m hm
    exact ⟨Address.toProto a,
      List.mem_map_of_mem (List.mem_reverse.mpr ha), hsame⟩
  · intro pick s' hstep c hc
    simp only [streaming] at hstep
    split at hstep
    · next current hstream =>
      obtain rfl := Option.some.inj hstep
      exact h.polled hstream hc
    · cases hstep

private def pairA : UpdateAddress.Pair :=
  ⟨"203.0.113.1", [], fun h => List.cons_ne_nil _ _ h.1⟩

private def pairB : UpdateAddress.Pair :=
  ⟨"203.0.113.2", [], fun h => List.cons_ne_nil _ _ h.1⟩

/-- The statements of a call that replaces the address. -/
private def replacing (i : Nat) (p : UpdateAddress.Pair) : List Label :=
  .update (.call i p) ::
    List.replicate 4 (.update (.statement i .none 0))

/-- Two calls, one after the other, and polls between them. -/
private def followed : List Label :=
  replacing 0 pairA ++ [.poll .none 0, .poll .none 0] ++ replacing 1 pairB ++
    [.poll .none 0]

theorem stream_follows_addresses_replaced :
    ∃ s, (streaming foldCase).run (start .empty) followed = some s ∧
      s.sent.map (·.id) = [1, 2] ∧
      (s.sent.map (·.id)).Pairwise (· < ·) := by
  refine ⟨_, rfl, by decide, ?_⟩
  refine (stream_follows_addresses foldCase .empty followed _ (by decide) rfl
    ?_).1
  refine ⟨trivial, ?_, ?_, ?_, ?_, trivial, trivial, trivial, ?_, ?_, ?_, ?_,
    trivial, trivial⟩
  all_goals
    rintro ⟨p, hp⟩ (_ | _ | j) q hj
    all_goals first
      | exact absurd rfl hj
      | nofun

/-- Two calls that both reset before either inserts. -/
private def racing : List Label :=
  [.update (.call 0 pairA), .update (.call 1 pairB),
    .update (.statement 0 .none 0), .update (.statement 1 .none 0),
    .update (.statement 0 .none 0), .update (.statement 1 .none 0),
    .update (.statement 0 .none 0), .update (.statement 1 .none 0),
    .poll .none 1, .poll .none 0, .poll .none 1]

/-- **Two current rows**: which one a poll reads is up to the database, and the
stream sends them over and over. -/
theorem racing_updates_repeat_addresses :
    ∃ s, (streaming foldCase).run (start .empty) racing = some s ∧
      s.sent.map (·.id) = [2, 1, 2] := by
  refine ⟨_, rfl, by decide⟩

end Hdns.Ports.AddressStream
