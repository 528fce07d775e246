import Hdns.Verified.FixedWidth
import Hdns.Ports.Mail
import Hdns.Ports.Renewal

/-!
# The configuration

The configuration is read from a file and can be changed from the web page,
through a message that has most of its fields.  The numbers are 64 bits wide in
the configuration and 32 in the message; `Validate` bounds them from below only,
and two of them are multiplied with a unit of time.

## Main results

* `validate_ok_iff` — what `Validate` asks for.
* `updateConfig_ok` — what a message does to the fields.
* `lawful_iff` — which configurations survive their own message.
* `durations_exact_iff` — which configurations keep the durations in 64 bits.
-/

namespace Hdns.Ports.Config

open Hdns.Verified
open Hdns.Verified.GoString
open Hdns.Verified.FixedWidth
open Hdns.Ports.Schema

/-! ## The data -/

/-- `float64`, by its bits. -/
structure Float64 where
  bits : BitVec 64
  deriving DecidableEq, Repr

namespace Float64

/-- The bits but for the sign. -/
def magnitude (x : Float64) : Nat := x.bits.toNat % 2 ^ 63

def isNaN (x : Float64) : Bool := 0x7FF0000000000000 < x.magnitude

/-- An integer in the order of the numbers; both zeros are zero. -/
def rank (x : Float64) : Int :=
  if x.bits.msb then -x.magnitude else x.magnitude

/-- `<`: false when one side is no number. -/
def lt (x y : Float64) : Bool := !x.isNaN && !y.isNaN && x.rank < y.rank

/-- `<=`. -/
def le (x y : Float64) : Bool := !x.isNaN && !y.isNaN && x.rank ≤ y.rank

def zero : Float64 := ⟨0⟩
def half : Float64 := ⟨0x3FE0000000000000#64⟩
def one : Float64 := ⟨0x3FF0000000000000#64⟩

example : lt zero half ∧ lt half one ∧ ¬lt one half := by decide

end Float64

/-- `NotificationSettings`. -/
structure NotificationSettings where
  enabled : Bool
  notifyOnSuccess : Bool
  recipients : List GoString
  cooldownMinutes : Int64
  subjectPrefix : GoString
  deriving DecidableEq, Repr

/-- `ACMESettings`. -/
structure ACMESettings where
  enabled : Bool
  email : GoString
  staging : Bool
  renewBeforeDays : Int64
  renewCron : GoString
  deriving DecidableEq, Repr

/-- `App`.  The transport of the mail package is a type of its own. -/
structure App (ClientConfig : Type) where
  logLevel : Int64
  webPort : Int16
  certificatePath : GoString
  keyPath : GoString
  refreshCron : GoString
  dnsServers : List GoString
  ipv4Resolvers : List GoString
  ipv6Resolvers : List GoString
  ipv4ResolverAgreementThreshold : Float64
  ipv6ResolverAgreementThreshold : Float64
  ipv4ResolverMinResponses : Int64
  ipv6ResolverMinResponses : Int64
  database : GoString
  mail : ClientConfig
  notifications : NotificationSettings
  acme : ACMESettings
  deriving DecidableEq, Repr

/-- `service.Configuration`, the message. -/
structure Configuration where
  logLevel : Int32
  refreshCron : GoString
  dnsServers : List GoString
  ipv4Resolvers : List GoString
  ipv6Resolvers : List GoString
  ipv4ResolverAgreementThreshold : Float64
  ipv6ResolverAgreementThreshold : Float64
  ipv4ResolverMinResponses : Int32
  ipv6ResolverMinResponses : Int32
  notificationsEnabled : Bool
  notificationsOnSuccess : Bool
  notificationsRecipients : List GoString
  notificationsCooldownMinutes : Int32
  notificationsSubjectPrefix : GoString
  acmeEnabled : Bool
  acmeEmail : GoString
  acmeStaging : Bool
  acmeRenewBeforeDays : Int32
  deriving DecidableEq, Repr

/-- The packages `Validate` asks. -/
structure Library (ClientConfig : Type) where
  /-- `cron.ParseStandard`, whose schedule is not used. -/
  parseStandard : GoString → Except GoError Unit
  mailEnabled : ClientConfig → Bool
  mailHost : ClientConfig → GoString
  mailFrom : ClientConfig → GoString
  mailValidate : ClientConfig → Except GoError Unit

section

variable {ClientConfig : Type}

/-- The defaults of `Init`, for a data directory and the mail package's
disabled transport. -/
def defaultConfig (path : GoString) (disabled : ClientConfig) :
    App ClientConfig where
  logLevel := 1
  webPort := 443
  certificatePath := GoPath.join [path, "certs/hdns.cert"]
  keyPath := GoPath.join [path, "certs/hdns.key"]
  refreshCron := "*/5 * * * *"
  dnsServers := [
    -- Robot
    "hydrogen.ns.hetzner.com:53",
    "oxygen.ns.hetzner.com:53",
    "helium.ns.hetzner.de:53",
    -- Konsole
    "ns3.second-ns.de:53",
    "ns1.your-server.de:53",
    "ns.second-ns.com:53",
    -- Public
    "9.9.9.9:53",
    "1.1.1.1:53"]
  ipv4Resolvers := [
    "https://icanhazip.com/",
    "https://ident.me/",
    "https://api.ipy.ch"]
  ipv6Resolvers := [
    "dns://resolver1.opendns.com/myip.opendns.com?type=AAAA",
    "dns://ns1.google.com/o-o.myaddr.l.google.com?type=TXT",
    "dns://[2606:4700:4700::1111]/whoami.cloudflare?type=TXT&class=CH",
    "https://api6.ipify.org",
    "https://ipv6.icanhazip.com"]
  ipv4ResolverAgreementThreshold := .half
  ipv6ResolverAgreementThreshold := .half
  ipv4ResolverMinResponses := 2
  ipv6ResolverMinResponses := 2
  database := "hdns:hdns@tcp(localhost:3306)/hdns?parseTime=true"
  mail := disabled
  notifications := {
    enabled := false
    notifyOnSuccess := false
    recipients := []
    cooldownMinutes := 60
    subjectPrefix := "[HDNS]" }
  acme := {
    enabled := false
    email := ""
    staging := true
    renewBeforeDays := 30
    renewCron := "0 3 * * *" }

/-! ## `Validate` -/

/-- `if b { .. }`. -/
def whenever (b : Bool) (act : Except GoError Unit) : Except GoError Unit :=
  if b then act else .ok ()

/-- `Validate`. -/
def validate (lib : Library ClientConfig) (c : App ClientConfig) :
    Except GoError Unit := do
  refuseIf (c.webPort ≤ 0) (.newError "web port must be greater than zero")
  (lib.parseStandard c.refreshCron).mapError
    (.because "invalid refresh cron expression")
  refuseIf (c.ipv4ResolverAgreementThreshold.le .zero ∨
      Float64.one.lt c.ipv4ResolverAgreementThreshold)
    (.newError "ipv4_resolver_agreement_threshold must be > 0 and <= 1")
  refuseIf (c.ipv6ResolverAgreementThreshold.le .zero ∨
      Float64.one.lt c.ipv6ResolverAgreementThreshold)
    (.newError "ipv6_resolver_agreement_threshold must be > 0 and <= 1")
  refuseIf (c.ipv4ResolverMinResponses ≤ 0)
    (.newError "ipv4_resolver_min_responses must be greater than zero")
  refuseIf (c.ipv6ResolverMinResponses ≤ 0)
    (.newError "ipv6_resolver_min_responses must be greater than zero")
  refuseIf (c.notifications.cooldownMinutes < 0)
    (.newError "notifications.cooldown_minutes must be >= 0")
  whenever c.notifications.enabled do
    refuseIf (c.notifications.recipients.length = 0)
      (.newError
        "notifications.recipients must not be empty when notifications are enabled")
    refuseIf (¬lib.mailEnabled c.mail)
      (.newError "mail.client.enabled must be true when notifications are enabled")
    refuseIf (lib.mailHost c.mail = [])
      (.newError "mail.client.host must be set when notifications are enabled")
    refuseIf (lib.mailFrom c.mail = [])
      (.newError "mail.client.from must be set when notifications are enabled")
    (lib.mailValidate c.mail).mapError (.because "invalid mail configuration")
  whenever c.acme.enabled do
    refuseIf (c.acme.email = [])
      (.newError "acme.email must be set when acme is enabled")
    refuseIf (c.acme.renewBeforeDays ≤ 0)
      (.newError "acme.renew_before_days must be greater than zero")
    (lib.parseStandard c.acme.renewCron).mapError
      (.because "invalid acme renew cron expression")

/-- What `Validate` asks for. -/
structure Valid (lib : Library ClientConfig) (c : App ClientConfig) : Prop where
  webPort : ¬c.webPort ≤ 0
  refreshCron : lib.parseStandard c.refreshCron = .ok ()
  threshold4 : ¬(c.ipv4ResolverAgreementThreshold.le .zero ∨
    Float64.one.lt c.ipv4ResolverAgreementThreshold)
  threshold6 : ¬(c.ipv6ResolverAgreementThreshold.le .zero ∨
    Float64.one.lt c.ipv6ResolverAgreementThreshold)
  minResponses4 : ¬c.ipv4ResolverMinResponses ≤ 0
  minResponses6 : ¬c.ipv6ResolverMinResponses ≤ 0
  cooldown : ¬c.notifications.cooldownMinutes < 0
  notifications : c.notifications.enabled →
    c.notifications.recipients.length ≠ 0 ∧ lib.mailEnabled c.mail = true ∧
      lib.mailHost c.mail ≠ [] ∧ lib.mailFrom c.mail ≠ [] ∧
      lib.mailValidate c.mail = .ok ()
  acme : c.acme.enabled →
    c.acme.email ≠ [] ∧ ¬c.acme.renewBeforeDays ≤ 0 ∧
      lib.parseStandard c.acme.renewCron = .ok ()

theorem bind_ok_iff {x y : Except GoError Unit} :
    (x >>= fun _ => y) = .ok () ↔ x = .ok () ∧ y = .ok () := by
  rw [Prog.except_bind_eq_ok]
  constructor
  · intro ⟨(), hx, hy⟩
    exact ⟨hx, hy⟩
  · intro ⟨hx, hy⟩
    exact ⟨(), hx, hy⟩

@[simp] theorem whenever_ok_iff {b : Bool} {act : Except GoError Unit} :
    whenever b act = .ok () ↔ (b = true → act = .ok ()) := by
  cases b with
  | false => simp [whenever]
  | true => simp [whenever]

/-- **`Validate` accepts** a configuration that has all of `Valid`. -/
theorem validate_ok_iff {lib : Library ClientConfig} {c : App ClientConfig} :
    validate lib c = .ok () ↔ Valid lib c := by
  unfold validate
  simp only [bind_ok_iff, refuseIf_eq_ok, whenever_ok_iff,
    Prog.mapError_eq_ok, Bool.not_eq_true, Bool.not_eq_false]
  constructor
  · intro h
    obtain ⟨h₁, h₂, h₃, h₄, h₅, h₆, h₇, h₈, h₉⟩ := h
    exact ⟨h₁, h₂, h₃, h₄, h₅, h₆, h₇, h₈, h₉⟩
  · intro h
    exact ⟨h.webPort, h.refreshCron, h.threshold4, h.threshold6,
      h.minResponses4, h.minResponses6, h.cooldown, h.notifications, h.acme⟩

/-- The defaults pass their own check. -/
theorem validate_defaultConfig {lib : Library ClientConfig} (path : GoString)
    (disabled : ClientConfig)
    (hcron : lib.parseStandard (lit "*/5 * * * *") = .ok ()) :
    validate lib (defaultConfig path disabled) = .ok () := by
  rw [validate_ok_iff]
  exact {
    webPort := (by decide : ¬(443 : Int16) ≤ 0)
    refreshCron := hcron
    threshold4 := (by decide : ¬(Float64.half.le .zero ∨
      Float64.one.lt .half))
    threshold6 := (by decide : ¬(Float64.half.le .zero ∨
      Float64.one.lt .half))
    minResponses4 := (by decide : ¬(2 : Int64) ≤ 0)
    minResponses6 := (by decide : ¬(2 : Int64) ≤ 0)
    cooldown := (by decide : ¬(60 : Int64) < 0)
    notifications := fun henabled => absurd henabled Bool.false_ne_true
    acme := fun henabled => absurd henabled Bool.false_ne_true }

/-- Packages for runs on concrete inputs: every schedule parses, and no mail
transport is set up. -/
def Library.sample : Library Unit where
  parseStandard := fun _ => .ok ()
  mailEnabled := fun _ => false
  mailHost := fun _ => []
  mailFrom := fun _ => []
  mailValidate := fun _ => .ok ()

/-- The defaults, for a data directory. -/
def App.sample : App Unit := defaultConfig "data" ()

/-! ## The message -/

/-- `ToProto`. -/
def toProto (c : App ClientConfig) : Configuration where
  logLevel := c.logLevel.toInt32
  refreshCron := c.refreshCron
  dnsServers := c.dnsServers
  ipv4Resolvers := c.ipv4Resolvers
  ipv6Resolvers := c.ipv6Resolvers
  ipv4ResolverAgreementThreshold := c.ipv4ResolverAgreementThreshold
  ipv6ResolverAgreementThreshold := c.ipv6ResolverAgreementThreshold
  ipv4ResolverMinResponses := c.ipv4ResolverMinResponses.toInt32
  ipv6ResolverMinResponses := c.ipv6ResolverMinResponses.toInt32
  notificationsEnabled := c.notifications.enabled
  notificationsOnSuccess := c.notifications.notifyOnSuccess
  notificationsRecipients := c.notifications.recipients
  notificationsCooldownMinutes := c.notifications.cooldownMinutes.toInt32
  notificationsSubjectPrefix := c.notifications.subjectPrefix
  acmeEnabled := c.acme.enabled
  acmeEmail := c.acme.email
  acmeStaging := c.acme.staging
  acmeRenewBeforeDays := c.acme.renewBeforeDays.toInt32

/-- `FromProto`, for a message that is not nil. -/
def fromProto (c : App ClientConfig) (pc : Configuration) : App ClientConfig :=
  { c with
    logLevel := pc.logLevel.toInt64
    refreshCron := pc.refreshCron
    dnsServers := pc.dnsServers
    ipv4Resolvers := pc.ipv4Resolvers
    ipv6Resolvers := pc.ipv6Resolvers
    ipv4ResolverAgreementThreshold :=
      if Float64.zero.lt pc.ipv4ResolverAgreementThreshold then
        pc.ipv4ResolverAgreementThreshold
      else c.ipv4ResolverAgreementThreshold
    ipv6ResolverAgreementThreshold :=
      if Float64.zero.lt pc.ipv6ResolverAgreementThreshold then
        pc.ipv6ResolverAgreementThreshold
      else c.ipv6ResolverAgreementThreshold
    ipv4ResolverMinResponses :=
      if 0 < pc.ipv4ResolverMinResponses then
        pc.ipv4ResolverMinResponses.toInt64
      else c.ipv4ResolverMinResponses
    ipv6ResolverMinResponses :=
      if 0 < pc.ipv6ResolverMinResponses then
        pc.ipv6ResolverMinResponses.toInt64
      else c.ipv6ResolverMinResponses
    notifications := { c.notifications with
      enabled := pc.notificationsEnabled
      notifyOnSuccess := pc.notificationsOnSuccess
      recipients := pc.notificationsRecipients
      cooldownMinutes := pc.notificationsCooldownMinutes.toInt64
      subjectPrefix := pc.notificationsSubjectPrefix }
    acme := { c.acme with
      enabled := pc.acmeEnabled
      email := pc.acmeEmail
      staging := pc.acmeStaging
      renewBeforeDays :=
        if 0 < pc.acmeRenewBeforeDays then pc.acmeRenewBeforeDays.toInt64
        else c.acme.renewBeforeDays } }

/-- `GetConfig`. -/
def getConfig (current : App ClientConfig) : Configuration := toProto current

/-- The configuration `UpdateConfig` starts from. -/
def seed (current : App ClientConfig) : App ClientConfig where
  logLevel := current.logLevel
  webPort := current.webPort
  certificatePath := current.certificatePath
  keyPath := current.keyPath
  refreshCron := current.refreshCron
  dnsServers := current.dnsServers
  ipv4Resolvers := current.ipv4Resolvers
  ipv6Resolvers := current.ipv6Resolvers
  ipv4ResolverAgreementThreshold := current.ipv4ResolverAgreementThreshold
  ipv6ResolverAgreementThreshold := current.ipv6ResolverAgreementThreshold
  ipv4ResolverMinResponses := current.ipv4ResolverMinResponses
  ipv6ResolverMinResponses := current.ipv6ResolverMinResponses
  database := current.database
  -- The transport is not part of the message; the two sections are seeded for
  -- the fields that are not.
  mail := current.mail
  notifications := current.notifications
  acme := current.acme

/-- `config.Write` of the configuration package: its answer, and the running
configuration after it. -/
abbrev Writer (ClientConfig : Type) :=
  App ClientConfig → App ClientConfig → Except GoError Unit × App ClientConfig

/-- A `config.Write` that goes through. -/
def Writer.sample : Writer ClientConfig := fun _ change => (.ok (), change)

/-- What is written without an error is what runs. -/
def Writes (write : Writer ClientConfig) : Prop :=
  ∀ running change, (write running change).1 = .ok () →
    (write running change).2 = change

/-- `UpdateConfig`: its answer, and the running configuration after it. -/
def updateConfig (lib : Library ClientConfig) (write : Writer ClientConfig)
    (current : App ClientConfig) (input : Configuration) :
    Except GoError Configuration × App ClientConfig :=
  let c := fromProto (seed current) input
  match validate lib c with
  | .error err => (.error (.wrap err), current)
  | .ok () =>
      match write current c with
      -- `Write` wraps the error, and so does its caller
      | (.error err, running) => (.error (.wrap (.wrap err)), running)
      | (.ok (), running) => (.ok (toProto c), running)

@[simp] theorem seed_eq (current : App ClientConfig) : seed current = current :=
  rfl

section Update

variable {lib : Library ClientConfig} {write : Writer ClientConfig}
  {c running : App ClientConfig} {p reply : Configuration}

/-- `UpdateConfig` accepts: the configuration that runs afterwards. -/
theorem updateConfig_ok (hwrite : Writes write)
    (hok : updateConfig lib write c p = (.ok reply, running)) :
    Valid lib running ∧ running = fromProto c p ∧ reply = getConfig running := by
  have hlaw := hwrite c (fromProto c p)
  simp only [updateConfig, seed_eq] at hok
  cases hvalid : validate lib (fromProto c p) with
  | error err =>
      rw [hvalid] at hok
      simp at hok
  | ok u =>
      rw [hvalid] at hok
      generalize write c (fromProto c p) = written at hok hlaw
      obtain ⟨answer, after⟩ := written
      cases answer with
      | error err => simp at hok
      | ok v =>
          have hafter : after = fromProto c p := hlaw rfl
          simp only [Prod.mk.injEq, Except.ok.injEq] at hok
          rw [← hok.2, ← hok.1, hafter]
          exact ⟨validate_ok_iff.mp hvalid, rfl, rfl⟩

/-- `Validate` refuses: nothing has changed. -/
theorem updateConfig_refused {err : GoError}
    (hvalid : validate lib (fromProto (seed c) p) = .error err) :
    updateConfig lib write c p = (.error (.wrap err), c) := by
  simp only [updateConfig, hvalid]

/-- Where the write goes through, `Validate` decides. -/
theorem updateConfig_of_valid
    (hwritten : write c (fromProto c p) = (.ok (), fromProto c p))
    (hvalid : Valid lib (fromProto c p)) :
    updateConfig lib write c p =
      (.ok (toProto (fromProto c p)), fromProto c p) := by
  simp only [updateConfig, seed_eq, validate_ok_iff.mpr hvalid, hwritten]

/-- What a message does to the fields. -/
structure Applied (c : App ClientConfig) (p : Configuration)
    (n : App ClientConfig) : Prop where
  logLevel : n.logLevel.toInt = p.logLevel.toInt
  refreshCron : n.refreshCron = p.refreshCron
  dnsServers : n.dnsServers = p.dnsServers
  ipv4Resolvers : n.ipv4Resolvers = p.ipv4Resolvers
  ipv6Resolvers : n.ipv6Resolvers = p.ipv6Resolvers
  threshold4 : n.ipv4ResolverAgreementThreshold =
    if Float64.zero.lt p.ipv4ResolverAgreementThreshold then
      p.ipv4ResolverAgreementThreshold
    else c.ipv4ResolverAgreementThreshold
  threshold6 : n.ipv6ResolverAgreementThreshold =
    if Float64.zero.lt p.ipv6ResolverAgreementThreshold then
      p.ipv6ResolverAgreementThreshold
    else c.ipv6ResolverAgreementThreshold
  minResponses4 : n.ipv4ResolverMinResponses.toInt =
    if 0 < p.ipv4ResolverMinResponses.toInt then
      p.ipv4ResolverMinResponses.toInt
    else c.ipv4ResolverMinResponses.toInt
  minResponses6 : n.ipv6ResolverMinResponses.toInt =
    if 0 < p.ipv6ResolverMinResponses.toInt then
      p.ipv6ResolverMinResponses.toInt
    else c.ipv6ResolverMinResponses.toInt
  notificationsEnabled : n.notifications.enabled = p.notificationsEnabled
  notifyOnSuccess : n.notifications.notifyOnSuccess = p.notificationsOnSuccess
  recipients : n.notifications.recipients = p.notificationsRecipients
  cooldownMinutes : n.notifications.cooldownMinutes.toInt =
    p.notificationsCooldownMinutes.toInt
  subjectPrefix : n.notifications.subjectPrefix = p.notificationsSubjectPrefix
  acmeEnabled : n.acme.enabled = p.acmeEnabled
  acmeEmail : n.acme.email = p.acmeEmail
  acmeStaging : n.acme.staging = p.acmeStaging
  renewBeforeDays : n.acme.renewBeforeDays.toInt =
    if 0 < p.acmeRenewBeforeDays.toInt then p.acmeRenewBeforeDays.toInt
    else c.acme.renewBeforeDays.toInt
  -- not in the message
  webPort : n.webPort = c.webPort
  certificatePath : n.certificatePath = c.certificatePath
  keyPath : n.keyPath = c.keyPath
  database : n.database = c.database
  mail : n.mail = c.mail
  renewCron : n.acme.renewCron = c.acme.renewCron

theorem widen_ite_toInt (x : Int32) (y : Int64) :
    (if 0 < x then x.toInt64 else y).toInt =
      if 0 < x.toInt then x.toInt else y.toInt := by
  have hpos : 0 < x ↔ 0 < x.toInt := Int32.lt_iff_toInt_lt
  by_cases hx : 0 < x
  · rw [if_pos hx, if_pos (hpos.mp hx), Int32.toInt_toInt64]
  · rw [if_neg hx, if_neg (mt hpos.mpr hx)]

/-- **What a message does**: `FromProto` applies it. -/
theorem fromProto_applied (c : App ClientConfig) (p : Configuration) :
    Applied c p (fromProto c p) where
  logLevel := Int32.toInt_toInt64 _
  refreshCron := rfl
  dnsServers := rfl
  ipv4Resolvers := rfl
  ipv6Resolvers := rfl
  threshold4 := rfl
  threshold6 := rfl
  minResponses4 := widen_ite_toInt _ _
  minResponses6 := widen_ite_toInt _ _
  notificationsEnabled := rfl
  notifyOnSuccess := rfl
  recipients := rfl
  cooldownMinutes := Int32.toInt_toInt64 _
  subjectPrefix := rfl
  acmeEnabled := rfl
  acmeEmail := rfl
  acmeStaging := rfl
  renewBeforeDays := widen_ite_toInt _ _
  webPort := rfl
  certificatePath := rfl
  keyPath := rfl
  database := rfl
  mail := rfl
  renewCron := rfl

end Update

/-! ## A configuration's own message -/

section Own

variable {lib : Library ClientConfig} {c : App ClientConfig}

/-- What `UpdateConfig` makes of a configuration's own message. -/
theorem fromProto_toProto (c : App ClientConfig) :
    fromProto c (toProto c) =
      { c with
        logLevel := c.logLevel.toInt32.toInt64
        ipv4ResolverMinResponses :=
          if 0 < c.ipv4ResolverMinResponses.toInt32 then
            c.ipv4ResolverMinResponses.toInt32.toInt64
          else c.ipv4ResolverMinResponses
        ipv6ResolverMinResponses :=
          if 0 < c.ipv6ResolverMinResponses.toInt32 then
            c.ipv6ResolverMinResponses.toInt32.toInt64
          else c.ipv6ResolverMinResponses
        notifications := { c.notifications with
          cooldownMinutes := c.notifications.cooldownMinutes.toInt32.toInt64 }
        acme := { c.acme with
          renewBeforeDays :=
            if 0 < c.acme.renewBeforeDays.toInt32 then
              c.acme.renewBeforeDays.toInt32.toInt64
            else c.acme.renewBeforeDays } } := by
  unfold fromProto toProto
  rw [ite_self, ite_self]

/-- The numbers of a configuration that its own message leaves alone. -/
structure Kept (c : App ClientConfig) : Prop where
  logLevel : Fits c.logLevel
  minResponses4 :
    low c.ipv4ResolverMinResponses ≤ 0 ∨ Fits c.ipv4ResolverMinResponses
  minResponses6 :
    low c.ipv6ResolverMinResponses ≤ 0 ∨ Fits c.ipv6ResolverMinResponses
  cooldown : Fits c.notifications.cooldownMinutes
  renewBeforeDays :
    low c.acme.renewBeforeDays ≤ 0 ∨ Fits c.acme.renewBeforeDays

theorem fromProto_toProto_eq_iff :
    fromProto c (toProto c) = c ↔ Kept c := by
  rw [fromProto_toProto]
  constructor
  · intro heq
    exact {
      logLevel := widen_narrow_eq_iff.mp (congrArg App.logLevel heq)
      minResponses4 :=
        replace_eq_iff.mp (congrArg App.ipv4ResolverMinResponses heq)
      minResponses6 :=
        replace_eq_iff.mp (congrArg App.ipv6ResolverMinResponses heq)
      cooldown := widen_narrow_eq_iff.mp
        (congrArg (fun n : App ClientConfig => n.notifications.cooldownMinutes)
          heq)
      renewBeforeDays := replace_eq_iff.mp
        (congrArg (fun n : App ClientConfig => n.acme.renewBeforeDays) heq) }
  · intro hkept
    rw [widen_narrow_eq_iff.mpr hkept.logLevel,
      replace_eq_iff.mpr hkept.minResponses4,
      replace_eq_iff.mpr hkept.minResponses6,
      widen_narrow_eq_iff.mpr hkept.cooldown,
      replace_eq_iff.mpr hkept.renewBeforeDays]

/-- A positive number stays positive where only a positive one replaces it. -/
theorem replace_pos {x : Int64} (hx : ¬x ≤ 0) :
    ¬(if 0 < x.toInt32 then x.toInt32.toInt64 else x) ≤ 0 := by
  by_cases hpos : 0 < x.toInt32
  · rw [if_pos hpos, Int64.le_iff_toInt_le, Int32.toInt_toInt64]
    have hpos' := Int32.lt_iff_toInt_lt.mp hpos
    exact Int.not_le.mpr hpos'
  · rw [if_neg hpos]
    exact hx

/-- `Validate` refuses a configuration's own message only for a cooldown whose
low bits read as a negative number. -/
theorem own_valid_iff (hvalid : Valid lib c) :
    Valid lib (fromProto c (toProto c)) ↔
      0 ≤ low c.notifications.cooldownMinutes := by
  have hcooldown : ∀ x : Int64, ¬x.toInt32.toInt64 < 0 ↔ 0 ≤ low x := by
    intro x
    rw [Int64.lt_iff_toInt_lt, widen_narrow_toInt]
    exact Int.not_lt
  rw [fromProto_toProto]
  constructor
  · intro hown
    exact (hcooldown _).mp hown.cooldown
  · intro hnonneg
    exact {
      webPort := hvalid.webPort
      refreshCron := hvalid.refreshCron
      threshold4 := hvalid.threshold4
      threshold6 := hvalid.threshold6
      minResponses4 := replace_pos hvalid.minResponses4
      minResponses6 := replace_pos hvalid.minResponses6
      cooldown := (hcooldown _).mpr hnonneg
      notifications := hvalid.notifications
      acme := fun henabled =>
        have hacme := hvalid.acme henabled
        ⟨hacme.1, replace_pos hacme.2.1, hacme.2.2⟩ }

/-- Reading a configuration and writing it back, over every way
`config.Write` may behave. -/
structure Lawful (lib : Library ClientConfig) (c : App ClientConfig) :
    Prop where
  /-- The unmodified message leaves the configuration unchanged. -/
  unmodified : ∀ {write : Writer ClientConfig} {reply running},
    Writes write →
      updateConfig lib write c (getConfig c) = (.ok reply, running) →
        running = c
  /-- An accepted message is applied. -/
  applied : ∀ {write : Writer ClientConfig} {p reply running},
    Writes write →
      updateConfig lib write c p = (.ok reply, running) → Applied c p running
  /-- Where `Validate` refuses, the configuration stays. -/
  refused : ∀ {write : Writer ClientConfig} {p err},
    validate lib (fromProto (seed c) p) = .error err →
      (updateConfig lib write c p).2 = c

/-- **A lawful pair**: `UpdateConfig` always applies what it accepts, and undoes
nothing of a configuration whose numbers its own message keeps, or whose own
message it refuses. -/
theorem lawful_iff (hvalid : validate lib c = .ok ()) :
    Lawful lib c ↔ low c.notifications.cooldownMinutes < 0 ∨ Kept c := by
  have hown := own_valid_iff (validate_ok_iff.mp hvalid)
  constructor
  · intro hlawful
    by_cases hneg : low c.notifications.cooldownMinutes < 0
    · exact Or.inl hneg
    · right
      have hwrites : Writes (Writer.sample : Writer ClientConfig) :=
        fun _ _ _ => rfl
      exact fromProto_toProto_eq_iff.mp (hlawful.unmodified hwrites
        (updateConfig_of_valid rfl (hown.mpr (Int.not_lt.mp hneg))))
  · intro hcase
    exact {
      unmodified := fun hwrite hok => by
        obtain ⟨haccepted, hrunning, -⟩ := updateConfig_ok hwrite hok
        rw [hrunning] at haccepted
        have hnonneg := hown.mp haccepted
        cases hcase with
        | inl hneg => exact absurd hneg (Int.not_lt.mpr hnonneg)
        | inr hkept =>
            rw [hrunning]
            exact fromProto_toProto_eq_iff.mpr hkept
      applied := fun hwrite hok => by
        obtain ⟨-, hrunning, -⟩ := updateConfig_ok hwrite hok
        rw [hrunning]
        exact fromProto_applied c _
      refused := fun hrefused => by
        rw [updateConfig_refused hrefused] }

theorem lawful_iff_defaults : Lawful Library.sample App.sample ↔
    low App.sample.notifications.cooldownMinutes < 0 ∨ Kept App.sample :=
  lawful_iff (validate_defaultConfig "data" () rfl)

/-- The defaults with a cooldown of 2 ^ 32 minutes. -/
def App.long : App Unit :=
  { App.sample with
    notifications := { App.sample.notifications with
      cooldownMinutes := 4294967296 } }

/-- Saving the unmodified message of an accepted configuration turns the
cooldown off. -/
theorem unmodified_message_clears_cooldown :
    validate Library.sample App.long = .ok () ∧
      (updateConfig Library.sample Writer.sample App.long
        (getConfig App.long)).2.notifications.cooldownMinutes = 0 ∧
      ¬Lawful Library.sample App.long := by
  have hupdate : updateConfig Library.sample Writer.sample App.long
      (getConfig App.long) =
        (.ok (toProto (fromProto App.long (toProto App.long))),
          fromProto App.long (toProto App.long)) := by
    rfl
  have hcooldown : (fromProto App.long
      (toProto App.long)).notifications.cooldownMinutes = 0 := by
    decide
  have hlong : App.long.notifications.cooldownMinutes ≠ 0 := by
    decide
  rw [hupdate]
  constructor
  · rfl
  constructor
  · exact hcooldown
  · intro hlawful
    have hsame := hlawful.unmodified (fun _ _ _ => rfl) hupdate
    rw [hsame] at hcooldown
    exact hlong hcooldown

end Own

/-! ## Durations -/

/-- The settings the mailer reads. -/
def App.mailSettings (lib : Library ClientConfig) (c : App ClientConfig) :
    Mail.Settings where
  notificationsEnabled := c.notifications.enabled
  notifyOnSuccess := c.notifications.notifyOnSuccess
  recipients := c.notifications.recipients
  cooldownMinutes := c.notifications.cooldownMinutes.toInt
  mailEnabled := lib.mailEnabled c.mail

/-- The environment of the handlers under the configuration. -/
def App.env (c : App ClientConfig) (env : Env) : Env :=
  { env with
    acmeEnabled := c.acme.enabled
    acmeEmail := c.acme.email
    renewBeforeDays := c.acme.renewBeforeDays.toInt }

theorem renewBefore_eq (days : Int) :
    Certificates.renewBefore days = (days * 86400000000000).bmod (2 ^ 64) := by
  unfold Certificates.renewBefore
  rw [Int.bmod_mul_bmod, Int.mul_assoc]
  rfl

/-- The durations that are computed from the configuration are those it
names. -/
structure Exact (lib : Library ClientConfig) (env : Env)
    (c : App ClientConfig) : Prop where
  /-- `allowBySeverity`. -/
  cooldown : Mail.cooldown (c.mailSettings lib).cooldownMinutes =
    c.notifications.cooldownMinutes.toInt * 60000000000
  /-- `RenewCertificates`, which computes nothing when ACME is off. -/
  renewBefore : (c.env env).acmeEnabled →
    Certificates.renewBefore (c.env env).renewBeforeDays =
      c.acme.renewBeforeDays.toInt * 86400000000000
  threshold : (c.env env).acmeEnabled →
    Renewal.threshold (c.env env) =
      env.now + c.acme.renewBeforeDays.toInt * 86400
  future : (c.env env).acmeEnabled →
    env.now < Renewal.threshold (c.env env)

section Durations

variable {lib : Library ClientConfig} {c : App ClientConfig}

theorem cooldown_exact_iff {minutes : Int} (hminutes : 0 ≤ minutes) :
    Mail.cooldown minutes = minutes * 60000000000 ↔ minutes ≤ 153722867 := by
  unfold Mail.cooldown
  exact wrap_mul_eq_iff hminutes (by decide)

theorem renewBefore_exact_iff {days : Int} (hdays : 0 ≤ days) :
    Certificates.renewBefore days = days * 86400000000000 ↔ days ≤ 106751 := by
  rw [renewBefore_eq]
  exact wrap_mul_eq_iff hdays (by decide)

/-- The threshold is that many days ahead. -/
theorem threshold_eq (env : Env)
    (hexact : Certificates.renewBefore c.acme.renewBeforeDays.toInt =
      c.acme.renewBeforeDays.toInt * 86400000000000) :
    Renewal.threshold (c.env env) =
      env.now + c.acme.renewBeforeDays.toInt * 86400 := by
  unfold Renewal.threshold
  show env.now + Certificates.renewBefore c.acme.renewBeforeDays.toInt /
    1000000000 = _
  rw [hexact]
  omega

/-- **No duration wraps** in a configuration `Validate` accepts, if the cooldown
is at most 153722867 minutes and, with ACME enabled, the renewal at most 106751
days ahead; beyond that one of them does. -/
theorem durations_exact_iff (hvalid : validate lib c = .ok ()) (env : Env) :
    Exact lib env c ↔
      c.notifications.cooldownMinutes.toInt ≤ 153722867 ∧
        (c.acme.enabled → c.acme.renewBeforeDays.toInt ≤ 106751) := by
  have hvalid := validate_ok_iff.mp hvalid
  have hminutes : 0 ≤ c.notifications.cooldownMinutes.toInt := by
    have hcooldown := hvalid.cooldown
    rw [Int64.lt_iff_toInt_lt] at hcooldown
    exact Int.not_lt.mp hcooldown
  have hdays : c.acme.enabled → 0 < c.acme.renewBeforeDays.toInt := by
    intro henabled
    have hrenew := (hvalid.acme henabled).2.1
    rw [Int64.le_iff_toInt_le] at hrenew
    exact Int.not_le.mp hrenew
  constructor
  · intro hexact
    constructor
    · exact (cooldown_exact_iff hminutes).mp hexact.cooldown
    · intro henabled
      have hnonneg := Int.le_of_lt (hdays henabled)
      exact (renewBefore_exact_iff hnonneg).mp (hexact.renewBefore henabled)
  · intro hbounds
    have hrenew : c.acme.enabled →
        Certificates.renewBefore c.acme.renewBeforeDays.toInt =
          c.acme.renewBeforeDays.toInt * 86400000000000 := by
      intro henabled
      have hnonneg := Int.le_of_lt (hdays henabled)
      exact (renewBefore_exact_iff hnonneg).mpr (hbounds.2 henabled)
    exact {
      cooldown := (cooldown_exact_iff hminutes).mpr hbounds.1
      renewBefore := hrenew
      threshold := fun henabled => threshold_eq env (hrenew henabled)
      future := fun henabled => by
        have hpos := hdays henabled
        rw [threshold_eq env (hrenew henabled)]
        omega }

/-- The defaults, with ACME enabled. -/
def App.renewing : App Unit :=
  { App.sample with
    acme := { App.sample.acme with
      enabled := true
      email := "admin@example.org" } }

theorem durations_exact_iff_renewing :
    App.renewing.acme.enabled = true ∧
      Exact Library.sample .sample App.renewing := by
  have hvalid : validate Library.sample App.renewing = .ok () := rfl
  refine ⟨rfl, (durations_exact_iff hvalid .sample).mpr ⟨?_, fun _ => ?_⟩⟩
  · decide
  · decide

/-- A message with a cooldown of 153722868 minutes and certificates renewed
106752 days ahead. -/
def Configuration.far : Configuration :=
  { toProto App.sample with
    notificationsCooldownMinutes := 153722868
    acmeEnabled := true
    acmeEmail := "admin@example.org"
    acmeRenewBeforeDays := 106752 }

/-- The configuration `UpdateConfig` makes of it. -/
def App.far : App Unit := fromProto App.sample Configuration.far

/-- A message `UpdateConfig` accepts and after which the cooldown is negative
and no certificate that is still valid is renewed. -/
theorem accepted_durations_wrap :
    updateConfig Library.sample Writer.sample App.sample Configuration.far =
        (.ok (getConfig App.far), App.far) ∧
      validate Library.sample App.far = .ok () ∧
      Mail.cooldown (App.far.mailSettings Library.sample).cooldownMinutes < 0 ∧
      Renewal.threshold (App.far.env .sample) < (App.far.env .sample).now ∧
      ¬Exact Library.sample .sample App.far := by
  have hthreshold : Renewal.threshold (App.far.env .sample) <
      (App.far.env .sample).now := by
    decide
  constructor
  · rfl
  constructor
  · rfl
  constructor
  · decide
  constructor
  · exact hthreshold
  · intro hexact
    exact absurd hthreshold (Int.not_lt.mpr (Int.le_of_lt (hexact.future rfl)))

end Durations

end

end Hdns.Ports.Config
