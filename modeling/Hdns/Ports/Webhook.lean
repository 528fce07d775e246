import Hdns.Verified.GoString

/-!
# The worker's webhook handler and its bearer-token check

The handler of a worker task lets a request through when its method is POST
and `secureEqual` accepts the token of its Authorization header.  `secureEqual`
compares byte `i` of both strings for `i := range provided`, and that loop
visits the first byte of every rune of the *provided* token only.  The bytes
inside a multi-byte sequence are never compared.

The comparison is therefore exact for some configured secrets and not for
others, and the dividing line is a property of the secret alone: whether one of
its bytes announces a multi-byte sequence for which the secret is long enough
(`GoString.hasRoom`).
-/

namespace Hdns.Ports.Webhook

open Hdns.Verified
open Hdns.Verified.GoString

/-- `task.Payload`: the certificate material of a webhook body. -/
structure Payload where
  cert : GoString
  chain : GoString
  fullchain : GoString
  privateKey : GoString
  certificateFormat : GoString
  pkcs12 : GoString
  pkcs12Base64 : GoString
  deriving DecidableEq, Repr

/-- The zero value a request without a body is executed with. -/
def Payload.zero : Payload := ⟨[], [], [], [], [], [], []⟩

/-- What the handler reads of an `http.Request`: `authorization` lists the
values of the Authorization header in the order they were received. -/
structure Request where
  method : GoString
  authorization : List GoString
  contentLength : Int
  body : GoString
  deriving DecidableEq, Repr

/-- The answer written to the client. -/
inductive Response where
  | error (message : GoString) (status : Nat)
  | ok
  deriving DecidableEq, Repr

/-- How a request ended: the payload `task.Execute` was called with, if it was
reached, and the answer. -/
structure Handled where
  executed : Option Payload
  response : Response
  deriving DecidableEq, Repr

/-- `http.Header.Get("Authorization")`: the first value, or the empty string. -/
def Request.getAuthorization (r : Request) : GoString := r.authorization.headD []

def bearerPrefix : GoString := "Bearer "

/-- `secureEqual`: the loop ranges over the provided string, so `i` takes the
values of `GoString.range`.  The lengths are equal inside the loop, so the
index expression on `expected` is always in bounds. -/
def secureEqual (provided expected : GoString) : Bool :=
  if provided.length ≠ expected.length then false
  else
    let diff := provided.range.foldl
      (fun diff i => diff ||| (provided.getD i 0 ^^^ expected.getD i 0)) 0
    diff == 0

/-- `isAuthorized`. -/
def isAuthorized (r : Request) (secret : GoString) : Bool :=
  let auth := r.getAuthorization
  if auth = [] then false
  else if ¬auth.hasPrefix bearerPrefix then false
  else
    let token := auth.trimPrefix bearerPrefix
    secureEqual token secret

/-- The handler `handler.Task` returns.  `decode` is the JSON decoder on the
size-limited body and `execute` is `task.Execute` on the configured task. -/
def task (decode : GoString → Except GoString Payload)
    (execute : Payload → Except GoString Unit) (secret : GoString)
    (r : Request) : Handled :=
  if r.method ≠ lit "POST" then
    ⟨none, .error "method not allowed" 405⟩
  else if ¬isAuthorized r secret then
    ⟨none, .error "unauthorized" 401⟩
  else
    let payload :=
      if r.contentLength ≠ 0 then decode r.body else .ok Payload.zero
    match payload with
    | .error _ => ⟨none, .error "invalid JSON body" 400⟩
    | .ok payload =>
        match execute payload with
        | .error err => ⟨some payload, .error err 500⟩
        | .ok () => ⟨some payload, .ok⟩

/-! ## What the comparison decides -/

private theorem foldl_or_eq_zero (f : Nat → UInt8) :
    ∀ (is : List Nat) (d : UInt8),
      is.foldl (fun diff i => diff ||| f i) d = 0 ↔
        d = 0 ∧ ∀ i ∈ is, f i = 0 := by
  intro is
  induction is with
  | nil => simp
  | cons i is ih =>
      intro d
      rw [List.foldl_cons, ih, UInt8.or_eq_zero_iff]
      simp [and_assoc]

/-- `secureEqual` compares the lengths and the bytes at the positions the loop
visits, and nothing else. -/
theorem secureEqual_iff (provided expected : GoString) :
    secureEqual provided expected = true ↔
      provided.length = expected.length ∧ Agree 0 provided expected := by
  unfold secureEqual
  split
  · next h => simp [h]
  · next h =>
    have hlen : provided.length = expected.length := not_not.mp h
    have hagree := agreeAt_iff provided expected [] [] 0 hlen rfl
    simp only [List.length_nil, List.nil_append] at hagree
    rw [beq_iff_eq, foldl_or_eq_zero]
    simp only [UInt8.xor_eq_zero_iff, true_and, GoString.range, hagree, hlen]

theorem secureEqual_self (s : GoString) : secureEqual s s = true :=
  (secureEqual_iff s s).mpr ⟨rfl, agree_self s 0⟩

/-- A secret without room for a multi-byte sequence is accepted only as
itself. -/
theorem eq_of_secureEqual {provided secret : GoString}
    (hroom : hasRoom secret = false)
    (h : secureEqual provided secret = true) : provided = secret := by
  obtain ⟨hlen, hagree⟩ := (secureEqual_iff provided secret).mp h
  exact eq_of_agree provided secret hlen hroom hagree

/-- A secret with room for a multi-byte sequence is also accepted as some
other string. -/
theorem exists_other_accepted {secret : GoString}
    (hroom : hasRoom secret = true) :
    ∃ provided, provided ≠ secret ∧ secureEqual provided secret = true := by
  obtain ⟨provided, hlen, hne, hagree⟩ := exists_agree_ne secret hroom
  exact ⟨provided, hne, (secureEqual_iff provided secret).mpr ⟨hlen, hagree⟩⟩

/-! ## What the handler lets through -/

variable (decode : GoString → Except GoString Payload)
  (execute : Payload → Except GoString Unit)

/-- An authorized request carries a token `secureEqual` accepts. -/
theorem isAuthorized_iff (r : Request) (secret : GoString) :
    isAuthorized r secret = true ↔
      ∃ token, r.getAuthorization = bearerPrefix ++ token ∧
        secureEqual token secret = true := by
  unfold isAuthorized
  dsimp only
  constructor
  · intro h
    split at h
    · simp at h
    · split at h
      · simp at h
      · next hpre =>
        obtain ⟨token, htoken⟩ := hasPrefix_iff.mp (not_not.mp hpre)
        exact ⟨token, htoken, by simpa [htoken] using h⟩
  · rintro ⟨token, htoken, haccept⟩
    have hne : bearerPrefix ++ token ≠ [] := by
      simp [show bearerPrefix ≠ [] by decide]
    have hpre : (bearerPrefix ++ token).hasPrefix bearerPrefix = true :=
      hasPrefix_iff.mpr ⟨token, rfl⟩
    simpa [htoken, hne, hpre] using haccept

/-- `task.Execute` is reached only through the method and token checks. -/
theorem task_executed {r : Request} {secret : GoString}
    (h : (task decode execute secret r).executed.isSome = true) :
    r.method = lit "POST" ∧ isAuthorized r secret = true := by
  unfold task at h
  split at h
  · simp at h
  · next hmethod =>
    split at h
    · simp at h
    · next hauth => exact ⟨not_not.mp hmethod, by simpa using hauth⟩

/-- A POST request without a body and with an accepted token reaches
`task.Execute`. -/
theorem task_executes_bodiless {secret token : GoString}
    (h : secureEqual token secret = true) :
    (task decode execute secret
      ⟨lit "POST", [bearerPrefix ++ token], 0, []⟩).executed.isSome = true := by
  have hauth : isAuthorized ⟨lit "POST", [bearerPrefix ++ token], 0, []⟩ secret
      = true := (isAuthorized_iff _ _).mpr ⟨token, rfl, h⟩
  simp only [task, hauth]
  cases hexec : execute Payload.zero <;> simp [hexec]

/-- **The exact domain of the token check.**  For a configured secret, each of
the two readings of "only the secret is let through" (the comparison accepts
the secret alone; `task.Execute` is reached only by POST requests whose
Authorization value is the prefix followed by the secret) holds if and only if
no byte of the secret announces a multi-byte sequence that fits into it. -/
theorem token_check_exact (secret : GoString) :
    ((∀ provided, secureEqual provided secret = true ↔ provided = secret) ↔
        hasRoom secret = false) ∧
      ((∀ r : Request, (task decode execute secret r).executed.isSome = true →
          r.method = lit "POST" ∧
            r.getAuthorization = bearerPrefix ++ secret) ↔
        hasRoom secret = false) := by
  refine ⟨⟨?_, ?_⟩, ⟨?_, ?_⟩⟩
  · intro hexact
    by_contra hroom
    obtain ⟨provided, hne, haccept⟩ :=
      exists_other_accepted (by simpa using hroom)
    exact hne ((hexact provided).mp haccept)
  · intro hroom provided
    refine ⟨eq_of_secureEqual hroom, ?_⟩
    rintro rfl
    exact secureEqual_self provided
  · intro hexact
    by_contra hroom
    obtain ⟨provided, hne, haccept⟩ :=
      exists_other_accepted (by simpa using hroom)
    have hreached := task_executes_bodiless decode execute haccept
    obtain ⟨_, hheader⟩ := hexact _ hreached
    exact hne (List.append_cancel_left hheader)
  · intro hroom r hreached
    obtain ⟨hmethod, hauth⟩ := task_executed decode execute hreached
    obtain ⟨token, htoken, haccept⟩ := (isAuthorized_iff r secret).mp hauth
    exact ⟨hmethod, by rw [htoken, eq_of_secureEqual hroom haccept]⟩

/-- The secret `è` (bytes `C3 A8`) is also accepted as `é` (bytes `C3 A9`), and
a request with that token reaches `task.Execute`. -/
theorem other_token_executes :
    secureEqual [0xC3, 0xA9] [0xC3, 0xA8] = true ∧
      ([0xC3, 0xA9] : GoString) ≠ [0xC3, 0xA8] ∧
      (task (fun _ => .error []) (fun _ => .ok ()) [0xC3, 0xA8]
        ⟨lit "POST", [bearerPrefix ++ [0xC3, 0xA9]], 0, []⟩).executed
          = some Payload.zero := by
  decide

end Hdns.Ports.Webhook
