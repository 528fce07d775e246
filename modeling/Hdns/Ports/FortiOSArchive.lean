import Hdns.Ports.SaveOutcome
import Hdns.Verified.JsonString

/-!
# The archive a FortiGate and a directory receive

`fortios_upload` and `cert_save` read the same two fields of a payload.  The
upload first takes out spaces, tabs and line breaks, and falls back to raw
bytes; `save` hands the field to the decoder as it is.  A text in base64 has no
spaces and no tabs, and its line breaks do not matter, so the two readers agree
wherever `save` can decode the field that both choose.

## Main results

* `decodeString_compactBase64` — the decoder sees a text as if only its spaces
  and tabs were taken out.
* `same_archive_iff` — the payloads from which both receive the same archive.
-/

namespace Hdns.Ports.FortiOSArchive

open Hdns.Verified
open Hdns.Verified.GoString
open Hdns.Verified.Overwrite (carriedOut)
open Hdns.Ports.Webhook
open Hdns.Ports.Worker
open Hdns.Ports.SaveOutcome

/-! ## The two readers -/

/-- The white space that `compactBase64` drops. -/
def dropped : List Nat := [0x20, 0x0A, 0x0D, 0x09]

/-- `compactBase64`; `strings.Map` writes every byte that is no part of a
character as U+FFFD. -/
def compactBase64 (s : GoString) : GoString :=
  (s.runes.filter fun r => r.1 ∉ dropped).flatMap fun r =>
    if r.1 = runeError ∧ r.2.length = 1 then Json.runeErrorBytes else r.2

/-- The error of a payload without an archive. -/
def noPKCS12Data : GoString := "fortios_upload: payload contains no pkcs12 data"

/-- `payloadPKCS12Base64`. -/
def payloadPKCS12Base64 (payload : Payload) : Except GoString GoString :=
  let pkcs12Base64 := compactBase64 payload.pkcs12Base64
  if pkcs12Base64 ≠ [] then .ok pkcs12Base64
  else
    let raw := payload.pkcs12.trimSpace
    if raw = [] then .error noPKCS12Data
    else
      let candidate := compactBase64 raw
      match Base64.decodeString candidate with
      | .ok _ => .ok candidate
      | .error _ => .ok (Base64.encode raw)

example : payloadPKCS12Base64 { Payload.zero with pkcs12Base64 := "QU JD\n" } =
    .ok (lit "QUJD") := by decide +kernel

/-! ## A text without its spaces and tabs -/

/-- The text without its spaces and tabs. -/
def unspaced (s : GoString) : GoString :=
  s.filter fun c => c ≠ 0x20 ∧ c ≠ 0x09

/-- The text is base64, line breaks or not. -/
def Decodable (s : GoString) : Prop := ∃ bytes, Base64.decodeString s = .ok bytes

theorem dropped_lt {n : Nat} (h : n ∈ dropped) : n < 0x80 := by
  simp only [dropped, List.mem_cons, List.not_mem_nil, or_false] at h
  omega

theorem ascii_of_decodeString {s bytes : GoString}
    (h : Base64.decodeString s = .ok bytes) : ∀ c ∈ s, c < 0x80 := by
  intro c hc
  rcases Base64.mem_of_decodeString h c hc with ⟨hascii, -⟩ | rfl | rfl
  · exact hascii
  · decide
  · decide

/-- An ASCII text is compacted byte by byte. -/
theorem compactBase64_ascii {s : GoString} (h : ∀ c ∈ s, c < 0x80) :
    compactBase64 s =
      (unspaced s).filter fun c => c ≠ 0x0A ∧ c ≠ 0x0D := by
  rw [compactBase64, runes_ascii h, unspaced, List.filter_filter,
    List.filter_map, List.flatMap_map]
  have hbytes : ∀ c : UInt8, (if c.toNat = runeError ∧ [c].length = 1 then
      Json.runeErrorBytes else [c]) = [c] := by
    intro c
    have hlt := c.toNat_lt
    refine if_neg fun hc => ?_
    have : c.toNat = 0xFFFD := hc.1
    omega
  have hkept : ∀ c : UInt8, (decide (c.toNat ∉ dropped)) =
      (decide (c ≠ 0x0A ∧ c ≠ 0x0D) && decide (c ≠ 0x20 ∧ c ≠ 0x09)) := by
    apply forall_byte
    decide +kernel
  simp only [hbytes, List.flatMap_singleton']
  exact List.filter_congr fun c _ => hkept c

/-- A text with a byte outside ASCII keeps one. -/
theorem compactBase64_not_ascii {s : GoString} {c : UInt8} (hc : c ∈ s)
    (hge : ¬c < 0x80) : ∃ c' ∈ compactBase64 s, ¬c' < 0x80 := by
  rw [← flatMap_runes _ s (Nat.le_refl _)] at hc
  obtain ⟨r, hr, hcr⟩ := List.mem_flatMap.mp hc
  have hkept : r.1 ∉ dropped := by
    intro hmem
    have hlt := dropped_lt hmem
    rw [bytes_of_lt hr hlt, List.mem_singleton] at hcr
    rw [hcr, UInt8.lt_iff_toNat_lt, UInt8.toNat_ofNat'] at hge
    exact hge (by simp; omega)
  have hmem : r ∈ s.runes.filter fun r => r.1 ∉ dropped :=
    List.mem_filter.mpr ⟨hr, decide_eq_true hkept⟩
  by_cases herr : r.1 = runeError ∧ r.2.length = 1
  · refine ⟨0xEF, List.mem_flatMap.mpr ⟨r, hmem, ?_⟩, by decide⟩
    rw [if_pos herr]
    decide
  · refine ⟨c, List.mem_flatMap.mpr ⟨r, hmem, ?_⟩, hge⟩
    rwa [if_neg herr]

/-- **What the decoder sees** of a compacted text: line breaks would not have
mattered. -/
theorem decodeString_compactBase64 (s bytes : GoString) :
    Base64.decodeString (compactBase64 s) = .ok bytes ↔
      Base64.decodeString (unspaced s) = .ok bytes := by
  by_cases hascii : ∀ c ∈ s, c < 0x80
  · rw [compactBase64_ascii hascii, Base64.decodeString, Base64.decodeString,
      List.filter_filter]
    simp only [Bool.and_self]
  · obtain ⟨c, hc, hge⟩ : ∃ c ∈ s, ¬c < 0x80 := by simpa using hascii
    constructor
    · intro h
      obtain ⟨c', hc', hge'⟩ := compactBase64_not_ascii hc hge
      exact absurd (ascii_of_decodeString h c' hc') hge'
    · intro h
      have hkept : c ∈ unspaced s := by
        refine List.mem_filter.mpr ⟨hc, decide_eq_true ⟨?_, ?_⟩⟩
        · rintro rfl
          exact hge (by decide)
        · rintro rfl
          exact hge (by decide)
      exact absurd (ascii_of_decodeString h c hkept) hge

/-- Base64 has no spaces and no tabs. -/
theorem unspaced_of_decodeString {s bytes : GoString}
    (h : Base64.decodeString s = .ok bytes) : unspaced s = s := by
  refine List.filter_eq_self.mpr fun c hc => ?_
  rcases Base64.mem_of_decodeString h c hc with ⟨-, hspace, -⟩ | rfl | rfl
  · refine decide_eq_true ⟨?_, ?_⟩
    · rintro rfl
      cases hspace
    · rintro rfl
      cases hspace
  · rfl
  · rfl

/-- A text whose compacted form decodes decodes alike, unless it has spaces or
tabs. -/
theorem decodeString_of_compact {s bytes : GoString} (hs : unspaced s = s) :
    Base64.decodeString (compactBase64 s) = .ok bytes ↔
      Base64.decodeString s = .ok bytes := by
  rw [decodeString_compactBase64, hs]

/-- Nothing is left of a text of dropped white space only. -/
theorem compactBase64_eq_nil_iff {s : GoString} :
    compactBase64 s = [] ↔ ∀ c ∈ s, c.toNat ∈ dropped := by
  constructor
  · intro h c hc
    rw [← flatMap_runes _ s (Nat.le_refl _)] at hc
    obtain ⟨r, hr, hcr⟩ := List.mem_flatMap.mp hc
    by_cases hkept : r.1 ∈ dropped
    · have hlt := dropped_lt hkept
      rw [bytes_of_lt hr hlt, List.mem_singleton] at hcr
      rw [hcr, UInt8.toNat_ofNat', Nat.mod_eq_of_lt (by omega)]
      exact hkept
    · have hnil := List.flatMap_eq_nil_iff.mp h r
        (List.mem_filter.mpr ⟨hr, decide_eq_true hkept⟩)
      by_cases herr : r.1 = runeError ∧ r.2.length = 1
      · rw [if_pos herr] at hnil
        cases hnil
      · rw [if_neg herr] at hnil
        rw [hnil] at hcr
        cases hcr
  · intro h
    have hascii : ∀ c ∈ s, c < 0x80 := fun c hc =>
      UInt8.lt_iff_toNat_lt.mpr (dropped_lt (h c hc))
    rw [compactBase64, runes_ascii hascii, List.flatMap_eq_nil_iff]
    intro r hr
    obtain ⟨hmem, hkept⟩ := List.mem_filter.mp hr
    obtain ⟨c, hc, rfl⟩ := List.mem_map.mp hmem
    exact absurd (h c hc) (of_decide_eq_true hkept)

/-- A text that is not blank leaves something. -/
theorem compactBase64_ne_nil {s : GoString} (h : s.trimSpace ≠ []) :
    compactBase64 s ≠ [] := by
  intro hnil
  refine h (trimSpace_eq_nil_iff.mpr fun r hr => ?_)
  obtain ⟨hne, -⟩ := mem_runes _ s (Nat.le_refl _) r hr
  obtain ⟨c, hc⟩ := List.exists_mem_of_ne_nil _ hne
  have hmem : c ∈ s := by
    rw [← flatMap_runes _ s (Nat.le_refl _)]
    exact List.mem_flatMap.mpr ⟨r, hr, hc⟩
  have hdropped := compactBase64_eq_nil_iff.mp hnil c hmem
  have hascii : c < 0x80 := UInt8.lt_iff_toNat_lt.mpr (dropped_lt hdropped)
  rw [rune_of_ascii hr hc hascii]
  simp only [dropped, List.mem_cons, List.not_mem_nil, or_false] at hdropped
  rcases hdropped with h | h | h | h <;> rw [h] <;> rfl

/-- What is left of a blank text is no base64. -/
theorem compactBase64_blank {s : GoString} (h : s.trimSpace = [])
    (hleft : compactBase64 s ≠ []) : ¬Decodable (compactBase64 s) := by
  rintro ⟨bytes, hbytes⟩
  refine hleft (compactBase64_eq_nil_iff.mpr fun c hc => ?_)
  rw [decodeString_compactBase64] at hbytes
  by_cases hspace : c = 0x20 ∨ c = 0x09
  · rcases hspace with rfl | rfl
    · decide
    · decide
  have hkept : c ∈ unspaced s :=
    List.mem_filter.mpr ⟨hc, decide_eq_true (not_or.mp hspace)⟩
  rcases Base64.mem_of_decodeString hbytes c hkept with
    ⟨hascii, hplain, -⟩ | rfl | rfl
  · exact absurd h (trimSpace_ne_nil hc hascii hplain)
  · decide
  · decide

/-- Trimming takes nothing from base64. -/
theorem decodeString_trimSpace {s bytes : GoString}
    (h : Base64.decodeString s = .ok bytes) :
    Base64.decodeString s.trimSpace = .ok bytes := by
  have hbreaks : ∀ r ∈ s.runes, isSpace r.1 = true →
      (r.2.filter fun c => c ≠ 0x0A ∧ c ≠ 0x0D) = [] := by
    rw [runes_ascii (ascii_of_decodeString h)]
    intro r hr hspace
    obtain ⟨c, hc, rfl⟩ := List.mem_map.mp hr
    rcases Base64.mem_of_decodeString h c hc with ⟨-, hplain, -⟩ | rfl | rfl
    · rw [hplain] at hspace
      cases hspace
    · rfl
    · rfl
  rw [Base64.decodeString, filter_trimSpace hbreaks, ← List.filter_flatMap,
    flatMap_runes _ s (Nat.le_refl _)]
  exact h

/-! ## What the FortiGate receives -/

section FortiGate

variable {payload : Payload} {bytes : GoString}

/-- `fortios_upload` has the FortiGate import the bytes. -/
def FortiGateReceives (payload : Payload) (bytes : GoString) : Prop :=
  ∃ text, payloadPKCS12Base64 payload = .ok text ∧
    Base64.decodeString text = .ok bytes

/-- The field in base64 is used where anything is left of it. -/
theorem fortiGateReceives_encoded (h : compactBase64 payload.pkcs12Base64 ≠ []) :
    FortiGateReceives payload bytes ↔
      Base64.decodeString (compactBase64 payload.pkcs12Base64) = .ok bytes := by
  unfold FortiGateReceives payloadPKCS12Base64
  simp only [if_pos h, Except.ok.injEq, exists_eq_left']

theorem not_fortiGateReceives (h : compactBase64 payload.pkcs12Base64 = [])
    (hraw : payload.pkcs12.trimSpace = []) :
    ¬FortiGateReceives payload bytes := by
  rintro ⟨text, htext, -⟩
  simp only [payloadPKCS12Base64, h, hraw, ne_eq, not_true_eq_false, if_false,
    if_true] at htext
  cases htext

/-- Without it, the FortiGate receives the other field, decoded or not. -/
theorem fortiGateReceives_raw (h : compactBase64 payload.pkcs12Base64 = [])
    (hraw : payload.pkcs12.trimSpace ≠ []) :
    ∃ bytes, FortiGateReceives payload bytes := by
  unfold FortiGateReceives payloadPKCS12Base64
  simp only [h, hraw, ne_eq, not_true_eq_false, if_false]
  cases hdecoded : Base64.decodeString
      (compactBase64 payload.pkcs12.trimSpace) with
  | ok bytes => exact ⟨bytes, _, rfl, hdecoded⟩
  | error err => exact ⟨_, _, rfl, Base64.decodeString_encode _⟩

/-- The other field, if it is base64. -/
theorem fortiGateReceives_decoded (h : compactBase64 payload.pkcs12Base64 = [])
    (hraw : payload.pkcs12.trimSpace ≠ []) {archive : GoString}
    (harchive : Base64.decodeString payload.pkcs12 = .ok archive) :
    FortiGateReceives payload bytes ↔ .ok archive =
      (.ok bytes : Except GoString GoString) := by
  have htrim := decodeString_trimSpace harchive
  have hcompact := (decodeString_of_compact
    (unspaced_of_decodeString htrim)).mpr htrim
  unfold FortiGateReceives payloadPKCS12Base64
  simp only [h, hraw, ne_eq, not_true_eq_false, if_false, hcompact,
    Except.ok.injEq, exists_eq_left']

end FortiGate

/-! ## What a directory receives -/

/-- Where the action saves the archive. -/
def archivePath (action : SaveAction) : GoString :=
  GoPath.join [GoPath.clean action.certDir, action.pkcs12File]

/-- `cert_save` accepts the payload, and the bytes are in the file. -/
def DiskReceives (action : SaveAction) (payload : Payload) (bytes : GoString) :
    Prop :=
  ∀ s, ∃ t, save Base64.decodeString action payload .quiet s = (.ok (), t) ∧
    t.state (archivePath action) = some bytes

/-- The action without its PKCS#12 file. -/
def withoutArchive (action : SaveAction) : SaveAction :=
  { action with pkcs12File := [] }

/-- An action with a PKCS#12 file; the payload has the content of its other
outputs, and none of them goes to that file. -/
structure SavesArchive (action : SaveAction) (payload : Payload) : Prop where
  named : action.pkcs12File.trimSpace ≠ []
  found : ∀ found ∈ outputsFound (withoutArchive action) payload [],
    found = true
  apart : ∀ w ∈ writtenOutputs (withoutArchive action) payload [],
    w.1 ≠ archivePath action

section Disk

variable {action : SaveAction} {payload : Payload} {pkcs12 bytes : GoString}

/-- The archive is one named entry more. -/
theorem mem_named_entries (hnamed : action.pkcs12File.trimSpace ≠ [])
    (e : FileEntry) :
    (e ∈ (entries action payload pkcs12).filter fun e =>
        e.filename.trimSpace ≠ []) ↔
      e = ⟨action.pkcs12File, pkcs12, "pkcs12"⟩ ∨
        e ∈ (entries (withoutArchive action) payload []).filter fun e =>
          e.filename.trimSpace ≠ [] := by
  have hblank : trimSpace [] = [] := rfl
  simp only [entries, withoutArchive, List.mem_filter, List.mem_cons,
    List.not_mem_nil, or_false, decide_eq_true_eq, ne_eq]
  constructor
  · rintro ⟨h | h | h | h | h, hname⟩
    · exact .inr ⟨.inl h, hname⟩
    · exact .inr ⟨.inr (.inl h), hname⟩
    · exact .inr ⟨.inr (.inr (.inl h)), hname⟩
    · exact .inr ⟨.inr (.inr (.inr (.inl h))), hname⟩
    · exact .inl h
  · rintro (rfl | ⟨h | h | h | h | h, hname⟩)
    · exact ⟨.inr (.inr (.inr (.inr rfl))), hnamed⟩
    · exact ⟨.inl h, hname⟩
    · exact ⟨.inr (.inl h), hname⟩
    · exact ⟨.inr (.inr (.inl h)), hname⟩
    · exact ⟨.inr (.inr (.inr (.inl h))), hname⟩
    · rw [h] at hname
      exact absurd hblank hname

theorem mem_writtenOutputs (hnamed : action.pkcs12File.trimSpace ≠ [])
    (w : Write) :
    w ∈ writtenOutputs action payload pkcs12 ↔
      w = (archivePath action, pkcs12) ∨
        w ∈ writtenOutputs (withoutArchive action) payload [] := by
  simp only [writtenOutputs, outputs, List.mem_append, List.mem_map,
    mem_named_entries hnamed, or_and_right, exists_or, exists_eq_left, or_assoc]
  exact or_congr_left eq_comm

theorem mem_outputsFound (hnamed : action.pkcs12File.trimSpace ≠ [])
    (found : Bool) :
    found ∈ outputsFound action payload pkcs12 ↔
      found = decide (pkcs12 ≠ []) ∨
        found ∈ outputsFound (withoutArchive action) payload [] := by
  simp only [outputsFound, List.mem_append, List.mem_map,
    mem_named_entries hnamed, or_and_right, exists_or, exists_eq_left, or_assoc]
  exact or_congr_left eq_comm

/-- **What `save` leaves in the archive's file**: what the decoder returns. -/
theorem diskReceives_iff (h : SavesArchive action payload) :
    DiskReceives action payload bytes ↔
      pkcs12Bytes Base64.decodeString payload = .ok bytes ∧ bytes ≠ [] := by
  have hsame : ∀ pkcs12, ∀ w' ∈ writtenOutputs action payload pkcs12,
      w'.1 = archivePath action → w'.2 = pkcs12 := by
    intro pkcs12 w' hw' hpath
    rcases (mem_writtenOutputs h.named w').mp hw' with rfl | hother
    · rfl
    · exact absurd hpath (h.apart w' hother)
  have hheld : ∀ pkcs12 files,
      carriedOut (writtenOutputs action payload pkcs12) files
        (archivePath action) = some pkcs12 := fun pkcs12 files =>
    saved_of_keepsApart (w := (archivePath action, pkcs12))
      ⟨_, (mem_writtenOutputs h.named _).mpr (.inl rfl), rfl⟩ (hsame pkcs12)
  constructor
  · intro hreceives
    obtain ⟨t, hrun, hfile⟩ := hreceives ⟨fun _ => none, 0⟩
    obtain ⟨pkcs12, hpkcs12, hfound, hfiles, -⟩ := save_ok hrun
    rw [hfiles, hheld] at hfile
    obtain rfl := Option.some.inj hfile
    exact ⟨hpkcs12, of_decide_eq_true
      (hfound _ ((mem_outputsFound h.named _).mpr (.inl rfl)))⟩
  · rintro ⟨hpkcs12, hsome⟩ s
    have hfound : ∀ found ∈ outputsFound action payload bytes,
        found = true := by
      intro found hmem
      rcases (mem_outputsFound h.named found).mp hmem with rfl | hother
      · exact decide_eq_true hsome
      · exact h.found found hother
    obtain ⟨t, hrun, hfiles⟩ := save_complete hpkcs12 hfound s
    refine ⟨t, hrun, ?_⟩
    rw [hfiles]
    exact hheld bytes s.state

/-- The text that `save` decodes. -/
def chosen (payload : Payload) : GoString :=
  if payload.pkcs12Base64.trimSpace = [] then payload.pkcs12
  else payload.pkcs12Base64

/-- **What a directory receives**: the chosen text decoded, unless it is
blank. -/
theorem diskReceives_chosen (h : SavesArchive action payload) :
    DiskReceives action payload bytes ↔
      (chosen payload).trimSpace ≠ [] ∧
        Base64.decodeString (chosen payload) = .ok bytes := by
  rw [diskReceives_iff h]
  have hbytes : pkcs12Bytes Base64.decodeString payload =
      if (chosen payload).trimSpace ≠ [] then
        (Base64.decodeString (chosen payload)).mapError .decodePKCS12
      else .ok [] := rfl
  rw [hbytes]
  by_cases hblank : (chosen payload).trimSpace = []
  · simp only [hblank, ne_eq, not_true_eq_false, if_false, false_and, iff_false]
    rintro ⟨hok, hsome⟩
    exact hsome (Except.ok.inj hok).symm
  · simp only [hblank, ne_eq, not_false_eq_true, if_true, true_and,
      Prog.mapError_eq_ok]
    refine and_iff_left_of_imp fun hdecoded =>
      Base64.decodeString_ne_nil hdecoded ?_
    by_contra hnone
    refine hblank (trimSpace_eq_nil_iff.mpr ?_)
    rw [runes_ascii (ascii_of_decodeString hdecoded)]
    intro r hr
    obtain ⟨c, hc, rfl⟩ := List.mem_map.mp hr
    rcases Base64.mem_of_decodeString hdecoded c hc with hplain | rfl | rfl
    · exact absurd ⟨c, hc, hplain⟩ hnone
    · rfl
    · rfl

end Disk

/-! ## The same archive -/

/-- The FortiGate and every directory receive the same bytes or none. -/
def SameArchive (payload : Payload) : Prop :=
  ∀ action, SavesArchive action payload → ∀ bytes,
    FortiGateReceives payload bytes ↔ DiskReceives action payload bytes

/-- The text is base64 only when its spaces and tabs are taken out. -/
def Spaced (s : GoString) : Prop := unspaced s ≠ s ∧ Decodable (unspaced s)

/-- The field in base64 is blank, and the other field is blank or decodes when
the first has only dropped white space; or the field is not spaced. -/
def OneReading (payload : Payload) : Prop :=
  if payload.pkcs12Base64.trimSpace = [] then
    payload.pkcs12.trimSpace = [] ∨
      (Decodable payload.pkcs12 ↔
        ∀ c ∈ payload.pkcs12Base64, c.toNat ∈ dropped)
  else ¬Spaced payload.pkcs12Base64

/-- An action with nothing but an archive. -/
private def archiveOnly : SaveAction :=
  ⟨"/etc/ssl", [], [], [], [], "server.p12", []⟩

private theorem archiveOnly_saves (payload : Payload) :
    SavesArchive archiveOnly payload :=
  ⟨by decide +kernel, nofun, nofun⟩

section Readings

variable {payload : Payload}

/-- Both readers decode a text: the FortiGate this one, `save` the chosen one. -/
theorem sameArchive_iff {text : GoString}
    (htext : ∀ bytes, FortiGateReceives payload bytes ↔
      Base64.decodeString text = .ok bytes)
    (hchosen : (chosen payload).trimSpace ≠ []) :
    SameArchive payload ↔ ∀ bytes, Base64.decodeString text = .ok bytes ↔
      Base64.decodeString (chosen payload) = .ok bytes := by
  constructor
  · intro h bytes
    rw [← htext, h archiveOnly (archiveOnly_saves payload),
      diskReceives_chosen (archiveOnly_saves payload)]
    exact and_iff_right hchosen
  · intro h action haction bytes
    rw [htext, h, diskReceives_chosen haction]
    exact (and_iff_right hchosen).symm

/-- A field that is not blank. -/
theorem sameArchive_encoded (h : payload.pkcs12Base64.trimSpace ≠ []) :
    SameArchive payload ↔ ¬Spaced payload.pkcs12Base64 := by
  have hchosen : chosen payload = payload.pkcs12Base64 := if_neg h
  rw [sameArchive_iff (fun _ => fortiGateReceives_encoded
    (compactBase64_ne_nil h)) (by rwa [hchosen]), hchosen]
  simp only [decodeString_compactBase64]
  constructor
  · rintro hsame ⟨hspaced, bytes, hbytes⟩
    exact hspaced (unspaced_of_decodeString ((hsame bytes).mp hbytes))
  · intro hnot bytes
    by_cases hspaced : unspaced payload.pkcs12Base64 = payload.pkcs12Base64
    · rw [hspaced]
    · constructor
      · exact fun hbytes => absurd ⟨hspaced, bytes, hbytes⟩ hnot
      · exact fun hbytes => absurd (unspaced_of_decodeString hbytes) hspaced

/-- A blank field of white space that is not dropped hides the other field from
the FortiGate. -/
theorem sameArchive_left (h : payload.pkcs12Base64.trimSpace = [])
    (hleft : compactBase64 payload.pkcs12Base64 ≠ []) :
    SameArchive payload ↔
      payload.pkcs12.trimSpace = [] ∨ ¬Decodable payload.pkcs12 := by
  have hchosen : chosen payload = payload.pkcs12 := if_pos h
  have hnone : ∀ bytes, ¬FortiGateReceives payload bytes := by
    intro bytes hreceives
    exact compactBase64_blank h hleft
      ⟨bytes, (fortiGateReceives_encoded hleft).mp hreceives⟩
  constructor
  · intro hsame
    by_contra hor
    obtain ⟨hblank, hdecodable⟩ := not_or.mp hor
    obtain ⟨bytes, hbytes⟩ := not_not.mp hdecodable
    refine hnone bytes ((hsame archiveOnly (archiveOnly_saves payload) bytes).mpr
      ((diskReceives_chosen (archiveOnly_saves payload)).mpr ?_))
    rw [hchosen]
    exact ⟨hblank, hbytes⟩
  · intro hor action haction bytes
    rw [diskReceives_chosen haction, hchosen]
    refine iff_of_false (hnone bytes) ?_
    rintro ⟨hblank, hbytes⟩
    rcases hor with hor | hor
    · exact hblank hor
    · exact hor ⟨bytes, hbytes⟩

/-- With nothing left of the first field, both read the other one. -/
theorem sameArchive_raw (h : payload.pkcs12Base64.trimSpace = [])
    (hnone : compactBase64 payload.pkcs12Base64 = []) :
    SameArchive payload ↔
      payload.pkcs12.trimSpace = [] ∨ Decodable payload.pkcs12 := by
  have hchosen : chosen payload = payload.pkcs12 := if_pos h
  by_cases hblank : payload.pkcs12.trimSpace = []
  · refine iff_of_true (fun action haction bytes => ?_) (.inl hblank)
    rw [diskReceives_chosen haction, hchosen]
    exact iff_of_false (not_fortiGateReceives hnone hblank)
      fun hdisk => hdisk.1 hblank
  · by_cases hdecodable : Decodable payload.pkcs12
    · obtain ⟨archive, harchive⟩ := hdecodable
      refine iff_of_true (fun action haction bytes => ?_) (.inr ⟨_, harchive⟩)
      rw [diskReceives_chosen haction, hchosen, harchive,
        fortiGateReceives_decoded hnone hblank harchive]
      exact (and_iff_right hblank).symm
    · refine iff_of_false (fun hsame => hdecodable ?_)
        (not_or.mpr ⟨hblank, hdecodable⟩)
      obtain ⟨bytes, hbytes⟩ := fortiGateReceives_raw hnone hblank
      have hdisk := (diskReceives_chosen (archiveOnly_saves payload)).mp
        ((hsame archiveOnly (archiveOnly_saves payload) bytes).mp hbytes)
      rw [hchosen] at hdisk
      exact ⟨bytes, hdisk.2⟩

end Readings

/-- **The payloads of which both receive the same archive.** -/
theorem same_archive_iff (payload : Payload) :
    SameArchive payload ↔ OneReading payload := by
  unfold OneReading
  by_cases hblank : payload.pkcs12Base64.trimSpace = []
  · rw [if_pos hblank, ← compactBase64_eq_nil_iff]
    by_cases hnone : compactBase64 payload.pkcs12Base64 = []
    · rw [sameArchive_raw hblank hnone, iff_true_right hnone]
    · rw [sameArchive_left hblank hnone, iff_false_right hnone]
  · rw [if_neg hblank, sameArchive_encoded hblank]

/-- Base64 in two words. -/
private def twoWords : Payload :=
  { Payload.zero with pkcs12Base64 := "QU JD" }

/-- Raw bytes that are no base64. -/
private def rawBytes : Payload := { Payload.zero with pkcs12 := "?" }

/-- Two archives are uploaded that `save` refuses. -/
theorem uploaded_archives_not_saved :
    (FortiGateReceives twoWords "ABC" ∧
        (save Base64.decodeString archiveOnly twoWords .quiet
          ⟨fun _ => none, 0⟩).1 = .error (.decodePKCS12 Base64.corrupt) ∧
        ¬SameArchive twoWords) ∧
      FortiGateReceives rawBytes "?" ∧
        (save Base64.decodeString archiveOnly rawBytes .quiet
          ⟨fun _ => none, 0⟩).1 = .error (.decodePKCS12 Base64.corrupt) ∧
        ¬SameArchive rawBytes := by
  have hwords : FortiGateReceives twoWords "ABC" :=
    ⟨"QUJD", by decide +kernel, by decide +kernel⟩
  have hraw : FortiGateReceives rawBytes "?" :=
    ⟨"Pw==", by decide +kernel, by decide +kernel⟩
  have hwords' : (save Base64.decodeString archiveOnly twoWords .quiet
      ⟨fun _ => none, 0⟩).1 = .error (.decodePKCS12 Base64.corrupt) := by
    decide +kernel
  have hraw' : (save Base64.decodeString archiveOnly rawBytes .quiet
      ⟨fun _ => none, 0⟩).1 = .error (.decodePKCS12 Base64.corrupt) := by
    decide +kernel
  refine ⟨⟨hwords, hwords', fun h => ?_⟩, hraw, hraw', fun h => ?_⟩
  · obtain ⟨t, hrun, -⟩ :=
      (h archiveOnly (archiveOnly_saves _) _).mp hwords ⟨fun _ => none, 0⟩
    rw [hrun] at hwords'
    cases hwords'
  · obtain ⟨t, hrun, -⟩ :=
      (h archiveOnly (archiveOnly_saves _) _).mp hraw ⟨fun _ => none, 0⟩
    rw [hrun] at hraw'
    cases hraw'

end Hdns.Ports.FortiOSArchive
