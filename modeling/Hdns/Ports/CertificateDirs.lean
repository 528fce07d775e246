import Hdns.Verified.RelativePath
import Hdns.Ports.CertificateFiles
import Hdns.Ports.Records
import Hdns.Ports.SharedNames

/-!
# The directories of the certificates

The directory of a record's certificate is a text made of its name and domain,
joined to `<data dir>/certs`.  The name is free text of a request: it may come
to the same text as another one, and as a path it may climb out of the
directory it is joined to.

## Main results

* `certificateDir_eq` — the text that is joined, by the record's name.
* `directories_differ_iff` — when two records have different directories.
* `certificate_files_inside_iff` — when the files stay below the data directory.
-/

namespace Hdns.Ports.CertificateDirs

open Hdns.Verified
open Hdns.Verified.GoString
open Hdns.Ports.Schema
open Hdns.Ports.Names
open Hdns.Ports.Records
open Hdns.Ports.Certificates
open Hdns.Ports.CertificateFiles
open Hdns.Ports.SharedNames (trimPrefix_label primary_mem_buildDomains
  trimPrefix_of_mem_buildDomains)

/-- The directory of all certificates. -/
def certsDir (env : Env) : GoString := GoPath.join [env.dataPath, "certs"]

/-- The name of a record in its domain: `@` is the domain, as is `*`, and any
other name loses one leading `*.`. -/
def inDomain (name domain : GoString) : GoString :=
  if name = lit "@" ∨ name = [] then domain.trimPrefix wildcardPrefix
  else if name = lit "*" then domain
  else name.trimPrefix wildcardPrefix ++ (lit "." ++ domain)

/-- What is joined to the directory of all certificates: every star of the name
reads `wildcard`. -/
def written (record : Record) : GoString :=
  (inDomain record.name (record.domain.trimSuffix ".")).replaceAll "*"
    "wildcard"

theorem trimPrefix_primary (record : Record) :
    ((buildDomains record).headD []).trimPrefix wildcardPrefix =
      inDomain record.name (record.domain.trimSuffix ".") := by
  have hprimary := primary_mem_buildDomains record
  have hhead : (buildDomains record).headD [] ∈ buildDomains record := by
    cases hdomains : buildDomains record with
    | nil => exact absurd (hdomains ▸ hprimary) List.not_mem_nil
    | cons d ds => exact List.mem_cons_self
  rw [trimPrefix_of_mem_buildDomains hhead hprimary]
  unfold inDomain
  by_cases hapex : record.name = lit "@" ∨ record.name = []
  · rw [if_pos hapex, if_pos hapex]
  rw [if_neg hapex, if_neg hapex]
  by_cases hstar : record.name = lit "*"
  · rw [if_pos hstar, if_pos hstar, trimPrefix_append]
  · rw [if_neg hstar, if_neg hstar,
      trimPrefix_label _ (fun h => hapex (.inr h)) hstar]

/-- The directory of a record. -/
theorem certificateDir_eq (env : Env) (record : Record) :
    certificateDir env record =
      GoPath.join [certsDir env, written record] := by
  unfold certificateDir certsDir written
  rw [trimPrefix_primary, GoPath.join_join _ _ _ (by decide)]

theorem certsDir_clean (env : Env) :
    GoPath.clean (certsDir env) = certsDir env := by
  unfold certsDir
  by_cases hpath : env.dataPath = []
  · simp [GoPath.join, hpath, show lit "certs" ≠ [] by decide]
  · exact GoPath.clean_join _ hpath

theorem certsDir_ne_nil (env : Env) : certsDir env ≠ [] := by
  intro hnil
  have hclean := certsDir_clean env
  rw [hnil] at hclean
  exact absurd hclean (by decide)

/-! ## Two records -/

section Two

variable (env : Env) (r r' : Record)

/-- The records keep their certificates in different directories, and no file
of one is a file of the other. -/
def Apart : Prop :=
  certificateDir env r ≠ certificateDir env r' ∧
    ∀ f ∈ fileNames, ∀ f' ∈ fileNames,
      pathIn (certificateDir env r) f ≠ pathIn (certificateDir env r') f'

/-- Different directories have different files. -/
theorem apart_iff :
    Apart env r r' ↔ certificateDir env r ≠ certificateDir env r' := by
  refine ⟨fun h => h.1, fun h => ⟨h, fun f hf f' hf' heq => h ?_⟩⟩
  exact ((pathIn_inj (certificateDir_clean env r)
    (certificateDir_clean env r') hf hf').mp heq).1

/-- **Different directories.**  The directories of two records, and with them
their files, differ if and only if what their names come to, read from the
directory of all certificates, does not lead to one place. -/
theorem directories_differ_iff :
    Apart env r r' ↔
      ¬(GoPath.reading (written r)).Meets (GoPath.isRooted (certsDir env))
        (GoPath.keptOf (certsDir env)) (GoPath.reading (written r')) := by
  rw [apart_iff, certificateDir_eq, certificateDir_eq, Ne,
    GoPath.join_eq_iff (certsDir_ne_nil env)]

end Two

/-! ### Names in one domain -/

/-- A star reads `wildcard`, any other byte reads itself. -/
theorem replaceAll_star (s : GoString) :
    s.replaceAll "*" "wildcard" =
      s.flatMap fun b => if b = 0x2A then lit "wildcard" else [b] := by
  unfold GoString.replaceAll
  induction s with
  | nil => rfl
  | cons b s ih =>
      rw [List.flatMap_cons, ← ih, GoString.replaceFrom]
      have hstar : (lit "*").isPrefixOf (b :: s) = (b == 0x2A) := by
        show (List.isPrefixOf [0x2A] (b :: s)) = _
        simp [List.isPrefixOf, Bool.beq_comm]
      rw [hstar]
      by_cases hb : b = 0x2A
      · simp only [hb, beq_self_eq_true, if_true]
        rfl
      · simp [hb]

/-- A name that stands for itself, before the domain. -/
def Relative (name : GoString) : Prop :=
  name ≠ lit "@" ∧ name ≠ [] ∧ name ≠ lit "*"

/-- Two such names of one domain come to one text if they agree without one
leading `*.` and with `wildcard` for each star. -/
theorem written_eq_iff {r r' : Record} (hdomain : r.domain = r'.domain)
    (hr : Relative r.name) (hr' : Relative r'.name) :
    written r = written r' ↔
      (r.name.trimPrefix wildcardPrefix).replaceAll "*" "wildcard" =
        (r'.name.trimPrefix wildcardPrefix).replaceAll "*" "wildcard" := by
  have hin : ∀ name, Relative name → ∀ domain, inDomain name domain =
      name.trimPrefix wildcardPrefix ++ (lit "." ++ domain) := by
    rintro name ⟨hat, hnil, hstar⟩ domain
    unfold inDomain
    rw [if_neg (not_or.mpr ⟨hat, hnil⟩), if_neg hstar]
  unfold written
  rw [hin _ hr, hin _ hr', hdomain]
  simp only [replaceAll_star, List.flatMap_append, List.append_left_inj]

/-- The name of a wildcard record is that of the domain itself. -/
theorem written_apex_eq_star {r r' : Record} (hdomain : r.domain = r'.domain)
    (hr : r.name = lit "@") (hr' : r'.name = lit "*")
    (hplain : (r.domain.trimSuffix ".").hasPrefix wildcardPrefix = false) :
    written r = written r' := by
  unfold written inDomain
  rw [hr, hr', ← hdomain, if_pos (.inl rfl), if_neg (by decide), if_pos rfl,
    trimPrefix_of_not hplain]

/-- Names without a slash: one text, one directory. -/
theorem plain_directories_agree_iff (env : Env) {r r' : Record}
    (hr : GoPath.Plain (written r)) (hr' : GoPath.Plain (written r')) :
    certificateDir env r = certificateDir env r' ↔ written r = written r' := by
  have hclean : GoPath.clean (certsDir env) = certsDir env :=
    certsDir_clean env
  rw [certificateDir_eq, certificateDir_eq,
    GoPath.join_inj hclean hclean hr hr']
  exact and_iff_right rfl

private def apex : RecordInput :=
  ⟨0, "token", 7, "example.org", "@", 60, 2, false, []⟩

private def fresh : Sys World := ⟨World.init fun _ _ => none, 0⟩

private def apexSaved : Sys World :=
  (upsertRecord Env.sample apex .quiet fresh).2

private def bothSaved : Sys World :=
  (upsertRecord Env.sample { apex with name := "*" } .quiet apexSaved).2

/-- The records `@` and `*` of a zone have one directory. -/
theorem apex_and_star_share_directory :
    bothSaved.state.records.rows.map (fun r => (r.zoneID, r.domain, r.name)) =
        [(7, lit "example.org", lit "@"), (7, lit "example.org", lit "*")] ∧
      ∀ r ∈ bothSaved.state.records.rows,
        ∀ r' ∈ bothSaved.state.records.rows, ¬Apart Env.sample r r' := by
  have hdirs : ∀ r ∈ bothSaved.state.records.rows,
      certificateDir Env.sample r = lit "data/certs/example.org" := by
    decide +kernel
  refine ⟨by decide +kernel, fun r hr r' hr' happart => happart.1 ?_⟩
  rw [hdirs r hr, hdirs r' hr']

/-! ## Inside the data directory -/

section Inside

variable (env : Env) (record : Record)

/-- Only files below a directory change. -/
def OnlyBelow (d : GoString) (w w' : World) : Prop :=
  ∀ p, w'.files p ≠ w.files p → GoPath.Below d p

theorem OnlyBelow.refl (d : GoString) (w : World) : OnlyBelow d w w :=
  fun _ h => absurd rfl h

theorem OnlyBelow.trans {d : GoString} (w₁ w₂ w₃ : World)
    (h : OnlyBelow d w₁ w₂) (h' : OnlyBelow d w₂ w₃) : OnlyBelow d w₁ w₃ := by
  intro p hp
  by_cases hsame : w₃.files p = w₂.files p
  · exact h p fun heq => hp (hsame.trans heq)
  · exact h' p hsame

theorem setFile_onlyBelow {d path : GoString} (h : GoPath.Below d path)
    (content : GoString) (w : World) :
    OnlyBelow d w (setFile path content w) := by
  intro p hp
  by_cases hpath : p = path
  · exact hpath ▸ h
  · exact absurd (if_neg hpath) hp

/-- The files stay below the directory of all certificates, whatever is written
and whatever fails. -/
structure Confined : Prop where
  dir : GoPath.Below (certsDir env) (certificateDir env record)
  files : ∀ res o, Prog.Keeps o (OnlyBelow (certsDir env))
    (writeCertificateFiles env record res)

variable {env record}

theorem writeCertificateFiles_onlyBelow
    (h : GoPath.Below (certsDir env) (certificateDir env record))
    (res : Resource) (o : Oracle Call) :
    Prog.Keeps o (OnlyBelow (certsDir env))
      (writeCertificateFiles env record res) := by
  have hrefl := OnlyBelow.refl (certsDir env)
  have htrans := @OnlyBelow.trans (certsDir env)
  refine .bind htrans (.mapError (.call hrefl fun w => hrefl w) _) fun _ =>
    .bind htrans (.forM_mem hrefl htrans _ ?_) fun _ => .pure hrefl _
  intro file hfile
  have hname : file.1 ∈ fileNames :=
    map_certificateFiles res ▸ List.mem_map_of_mem hfile
  have hpath : GoPath.Below (certsDir env)
      (GoPath.join [certificateDir env record, file.1]) :=
    h.join (certsDir_ne_nil env) (fileNames_plain _ hname)
  have hopen : Prog.Keeps o (OnlyBelow (certsDir env))
      (openFile (GoPath.join [certificateDir env record, file.1])) :=
    .call hrefl (setFile_onlyBelow hpath [])
  have hwrite : Prog.Keeps o (OnlyBelow (certsDir env))
      (writeContent (GoPath.join [certificateDir env record, file.1])
        file.2) :=
    .call hrefl (setFile_onlyBelow hpath file.2)
  exact .mapError (.bind htrans hopen fun _ => hwrite) _

/-- **Certificate files stay inside the data directory** if and only if what
the record's name comes to, read from the directory of all certificates, ends
below it. -/
theorem certificate_files_inside_iff (env : Env) (record : Record) :
    Confined env record ↔
      (GoPath.reading (written record)).Inside
        (GoPath.isRooted (certsDir env)) (GoPath.keptOf (certsDir env)) := by
  rw [← GoPath.below_join_iff (certsDir_ne_nil env), ← certificateDir_eq]
  exact ⟨fun h => h.dir, fun h => ⟨h, writeCertificateFiles_onlyBelow h⟩⟩

end Inside

/-- A name without a slash leads to a directory of its own below. -/
theorem plain_directory_inside (env : Env) {record : Record}
    (h : GoPath.Plain (written record)) : Confined env record := by
  have hbelow : GoPath.Below (certsDir env) (certificateDir env record) :=
    ⟨[written record], by simp, by simpa using h,
      certificateDir_eq env record⟩
  exact ⟨hbelow, writeCertificateFiles_onlyBelow hbelow⟩

private def climbing : Sys World :=
  (upsertRecord Env.sample { apex with name := "../../../etc/cron" } .quiet
    fresh).2

/-- A name that is accepted and climbs out of the data directory. -/
theorem name_climbs_out_of_data_directory :
    climbing.state.records.rows.map (fun r => (r.domain, r.name)) =
        [(lit "example.org", lit "../../../etc/cron")] ∧
      ∀ r ∈ climbing.state.records.rows,
        certificateDir Env.sample r = lit "../etc/cron.example.org" ∧
          ¬Confined Env.sample r := by
  have hdirs : ∀ r ∈ climbing.state.records.rows,
      certificateDir Env.sample r = lit "../etc/cron.example.org" := by
    decide +kernel
  have hreading : ∀ r ∈ climbing.state.records.rows,
      GoPath.reading (written r) =
        ⟨3, [lit "cron.example.org", lit "etc"]⟩ := by
    decide +kernel
  refine ⟨by decide +kernel, fun r hr => ⟨hdirs r hr, fun h => ?_⟩⟩
  have hinside := (GoPath.below_join_iff (certsDir_ne_nil Env.sample)
    (written r)).mp (certificateDir_eq Env.sample r ▸ h.dir)
  rw [hreading r hr] at hinside
  obtain ⟨ns, back, _, _, hback⟩ := hinside
  -- three steps up leave `..`, from which nothing comes back to `data/certs`
  have hleft : GoPath.climb (GoPath.isRooted (certsDir Env.sample))
      (GoPath.keptOf (certsDir Env.sample)) 3 = [GoPath.dotDot] := by
    decide
  have hcerts : GoPath.keptOf (certsDir Env.sample) =
      [lit "certs", lit "data"] := by
    decide
  rw [hleft, hcerts] at hback
  have hlast := congrArg List.getLast? hback
  simp only [List.getLast?_append, List.getLast?_singleton, Option.some_or]
    at hlast
  exact absurd hlast (by decide)

end Hdns.Ports.CertificateDirs
