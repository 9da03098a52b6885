import MqSentinel.MultiInstanceDiagnosis
import MqSentinel.MqscParser

/-!
# Topology detection

`TopologyDetector.detect` sends its queries through a connector whose every call may
raise, and takes each flag from the text of one reply: a word in it, or that it is not
blank.  The words also stand in replies that say no, so a flag is grounded only where the
word that raised it is a positive answer.
-/

namespace MqSentinel
namespace Detect

open Regex CodePoint Miqm
open Mqsc (parseMqscReply)

/-- `TopologyFingerprint` -/
structure TopologyFingerprint where
  topology : Topology
  mqVersion : Option PyStr
  platform : Option PyStr
  isZos : Bool
  isClustered : Bool
  isUniformCluster : Bool
  hasStandby : Bool
  isNativeHa : Bool
  isRdqm : Bool
  evidence : List (PyStr × PyStr)

/-- `str(b)` -/
def boolStr (b : Bool) : PyStr :=
  (Cell.bool b).toStr

/-- `_classify` -/
def classify (isZos isNativeHa isRdqm hasStandby isClustered isUniformCluster : Bool) :
    Topology :=
  if isZos then .zosQsg
  else if isNativeHa then .nativeHa
  else if isRdqm then .rdqm
  else if hasStandby then .multiInstance
  else if isUniformCluster then .uniformCluster
  else if isClustered then .traditionalCluster
  else .standalone

section Detector

variable (U : UnicodeData)

/-- `word in text.upper()` -/
def mentions (word : String) (text : PyStr) : Bool :=
  decide (lit word <:+: U.upperStr text)

/-- The dotted form of one pair of digits; `int` may raise. -/
def versionField (raw : PyStr) (i : Nat) : Except PyStr PyStr :=
  match PyInt.ofStr U ((raw.drop i).take 2) with
  | none => .error (lit "ValueError")
  | some n => .ok (PyInt.toStr n)

/-- `normalize_mq_version`; `isdigit` is `str.isdigit` on one character. -/
def normalizeMqVersion (isdigit : CodePoint → Bool) (raw : Option PyStr) :
    Except PyStr (Option PyStr) :=
  match raw with
  | none => .ok none
  | some v =>
      if v.length = 8 ∧ v.all isdigit then do
        let fields ← [0, 2, 4, 6].mapM (versionField U v)
        return some (List.intercalate [ch '.'] fields)
      else .ok (some v)

/-- `_safe_attr`; the cells of a reply are strings. -/
def safeAttr (connector : Connector) (command attr : String) : Option PyStr :=
  match connector.executeMqsc (lit command) with
  | .error _ => none
  | .ok result => (result.rows.findSome? fun row => row.get? (lit attr)).map Cell.toStr

/-- `_safe_raw` -/
def safeRaw (connector : Connector) (command : String) : PyStr :=
  Health.safeRaw connector.toConnector (lit command)

/-- The reply of `DISPLAY QMSTATUS`. -/
def qmstatusRaw (connector : Connector) : PyStr :=
  safeRaw connector "DISPLAY QMSTATUS"

/-- The reply of `DISPLAY CLUSQMGR(*) CLUSTER`. -/
def clusqmgrRaw (connector : Connector) : PyStr :=
  safeRaw connector "DISPLAY CLUSQMGR(*) CLUSTER"

/-- `_shell_indicates_rdqm` -/
def shellIndicatesRdqm (connector : Connector) : Bool :=
  match connector.executeShell [lit "rdqmstatus"] with
  | .error _ => false
  | .ok out => decide (lit "Node:" <:+: out) || mentions U "DRBD" out

/-- `_dspmq_indicates_standby` -/
def dspmqIndicatesStandby (connector : Connector) : Bool :=
  match connector.executeShell [lit "dspmq", lit "-o", lit "standby"] with
  | .error _ => false
  | .ok out => mentions U "PERMITTED" out || mentions U "STANDBY" out

/-- `detect`; the exception is a digit of the version that `int` does not read. -/
def detect (isdigit : CodePoint → Bool) (connector : Connector) :
    Except PyStr TopologyFingerprint := do
  let version ← normalizeMqVersion U isdigit (safeAttr connector "DISPLAY QMGR VERSION" "VERSION")
  let platform := safeAttr connector "DISPLAY QMGR PLATFORM" "PLATFORM"
  let qmstatus := qmstatusRaw connector
  let isZos := decide (lit "MVS" <+: U.upperStr (platform.getD [])) ||
    mentions U "ZOS" (platform.getD [])
  let isNativeHa := mentions U "NATIVEHA" qmstatus || mentions U "INSYNC" qmstatus
  let isRdqm := shellIndicatesRdqm U connector
  let hasStandby := dspmqIndicatesStandby U connector
  let clusqmgr := clusqmgrRaw connector
  let isClustered := !(strip clusqmgr).isEmpty
  let isUniformCluster := mentions U "UNIFORM" clusqmgr
  return {
    topology := classify isZos isNativeHa isRdqm hasStandby isClustered isUniformCluster
    mqVersion := version
    platform := platform
    isZos := isZos
    isClustered := isClustered
    isUniformCluster := isUniformCluster
    hasStandby := hasStandby
    isNativeHa := isNativeHa
    isRdqm := isRdqm
    evidence :=
      [ (lit "version_query", version.getD []), (lit "platform_query", platform.getD []),
        (lit "qmstatus_present", boolStr (!qmstatus.isEmpty)),
        (lit "clusqmgr_present", boolStr isClustered) ] }

end Detector

section Evidence

variable (U : UnicodeData)

/-- A character of the name of an MQSC attribute. -/
def isAttrChar (c : CodePoint) : Bool :=
  c.isUpperAscii || c.isDigitAscii || c == ch '_'

/-- The name of an attribute stands in the text, in any letter case. -/
def HasAttr (name : String) (text : PyStr) : Prop :=
  ∃ a b, U.upperStr text = a ++ lit name ++ b ∧ a.getLast?.any isAttrChar = false ∧
    b.head?.any isAttrChar = false

/-- The reply says that the queue manager runs native HA. -/
def SaysNativeHa (text : PyStr) : Prop :=
  (mentions U "NATIVEHA(YES)" text = true ∨ HasAttr U "INSYNC" text) ∧
    mentions U "NATIVEHA(NO)" text = false

/-- A parsed row as the tools read it. -/
def attrsRow (attrs : Mqsc.Attrs) : Row where
  items := attrs.items.map fun p => (p.1, .str p.2)
  nodup := by simpa [List.map_map, Function.comp_def] using attrs.nodup

/-- The rows of every reply are those of `parse_mqsc_reply`, as on the live connector. -/
def IsLive (connector : Connector) : Prop :=
  ∀ command result, connector.executeMqsc command = .ok result →
    result.rows = (parseMqscReply U result.raw).map attrsRow

/-- The flags that rest on positive evidence. -/
structure Grounded (connector : Connector) (fp : TopologyFingerprint) : Prop where
  nativeHa : fp.isNativeHa = true → SaysNativeHa U (qmstatusRaw connector)
  standby : fp.hasStandby = (rawData U connector).standbyPermitted
  clustered : IsLive U connector → fp.isClustered = true →
    parseMqscReply U (clusqmgrRaw connector) ≠ []

/-- The replies in which every word that the detector looks for is a positive answer. -/
structure OnlyPositiveAnswers (connector : Connector) : Prop where
  nativeHa : mentions U "NATIVEHA" (qmstatusRaw connector) = true ∨
      mentions U "INSYNC" (qmstatusRaw connector) = true →
    SaysNativeHa U (qmstatusRaw connector)
  standby : mentions U "PERMITTED" (dspmqStandby connector) = true ∨
      mentions U "STANDBY" (dspmqStandby connector) = true →
    standbyPermitted.HasMatch (dspmqStandby connector)
  clustered : IsLive U connector → (∃ c ∈ clusqmgrRaw connector, c.isSpace = false) →
    parseMqscReply U (clusqmgrRaw connector) ≠ []

end Evidence

section Flags

variable {U : UnicodeData}

/-- What ignores case like an upper-case letter has that letter for its upper case. -/
theorem upper_of_reFold
    {c d : CodePoint} (hd : d.isUpperAscii = true) (hI : d ≠ ch 'I') (hK : d ≠ ch 'K')
    (h : c.reFold = d.reFold) :
    U.upper c = [d] := by
  have hrange := hd
  simp only [isUpperAscii, decide_eq_true_eq] at hrange
  have hvalI : d.val ≠ 0x49 := fun hval => hI (CodePoint.ext hval)
  have hvalK : d.val ≠ 0x4B := fun hval => hK (CodePoint.ext hval)
  have hfold : d.reFold.val = d.val + 0x20 := by
    rw [reFold, if_neg (by omega), if_neg (by omega), if_neg (by omega), toLowerAscii,
      dif_pos hd]
  rw [← h, reFold] at hfold
  split at hfold
  · have hi : (ch 'i').val = 0x69 := by rfl
    omega
  · split at hfold
    · rename_i hlong
      have hs : (ch 's').val = 0x73 := by rfl
      have hc : c = longS := CodePoint.ext hlong
      have hS : d = ch 'S' := CodePoint.ext (by
        have hval : (ch 'S').val = 0x53 := by rfl
        omega)
      rw [hc, U.upper_longS, hS]
      rfl
    · split at hfold
      · have hk : (ch 'k').val = 0x6B := by rfl
        omega
      · rw [toLowerAscii] at hfold
        split at hfold
        · have hc : c = d := CodePoint.ext (by simpa using hfold)
          rw [hc, U.upper_ascii d (by simp only [isAscii, decide_eq_true_eq]; omega),
            toUpperAscii, dif_neg]
          simp only [isLowerAscii, decide_eq_true_eq]
          omega
        · have hlower : c.isLowerAscii = true := by
            simp only [isLowerAscii, decide_eq_true_eq]
            omega
          rw [U.upper_ascii c (by simp only [isAscii, decide_eq_true_eq]; omega),
            toUpperAscii, dif_pos hlower]
          congr 1
          apply CodePoint.ext
          simp only
          omega

/-- A word found ignoring case is found in the upper case of the text. -/
theorem mentions_of_lang
    {s : String} (hs : ∀ d ∈ lit s, d.isUpperAscii = true ∧ d ≠ ch 'I' ∧ d ≠ ch 'K')
    {w pre post : PyStr} (h : Rx.Lang (ciRx s) pre w post) (a b : PyStr) :
    mentions U s (a ++ w ++ b) = true := by
  rw [ciRx, Rx.lang_word, fits_ci_iff] at h
  have hupper : ∀ {t w : PyStr}, (∀ d ∈ t, d.isUpperAscii = true ∧ d ≠ ch 'I' ∧ d ≠ ch 'K') →
      w.map reFold = t.map reFold → U.upperStr w = t := by
    intro t
    induction t with
    | nil =>
        intro w _ hw
        rw [List.map_eq_nil_iff.mp hw]
        rfl
    | cons d t ih =>
        intro w ht hw
        cases w with
        | nil =>
            cases hw
        | cons c w =>
            obtain ⟨hc, hw⟩ := List.cons.inj hw
            obtain ⟨hd, hI, hK⟩ := ht d (by simp)
            rw [UnicodeData.upperStr, List.flatMap_cons, upper_of_reFold hd hI hK hc]
            exact congrArg (d :: ·) (ih (fun e he => ht e (List.mem_cons_of_mem _ he)) hw)
  rw [mentions, decide_eq_true_eq]
  refine ⟨U.upperStr a, U.upperStr b, ?_⟩
  rw [← hupper hs h]
  simp [UnicodeData.upperStr]

theorem isEmpty_strip_eq_false_iff
    (s : PyStr) :
    (strip s).isEmpty = false ↔ ∃ c ∈ s, c.isSpace = false := by
  rw [Bool.eq_false_iff, ne_eq, List.isEmpty_iff, strip_eq_nil_iff]
  simp

/-- Where the call raises, the text is empty and holds no word. -/
theorem dspmqIndicatesStandby_eq
    (connector : Connector) :
    dspmqIndicatesStandby U connector =
      (mentions U "PERMITTED" (dspmqStandby connector) ||
        mentions U "STANDBY" (dspmqStandby connector)) := by
  rw [dspmqIndicatesStandby, dspmqStandby, safeShell]
  cases connector.executeShell [lit "dspmq", lit "-o", lit "standby"] with
  | ok out =>
      rfl
  | error e =>
      have hempty : U.upperStr [] = [] := rfl
      simp [mentions, hempty, List.infix_nil, lit]

/-- The test of the multi-instance tool passes only on a text with the word `STANDBY`. -/
theorem mentions_of_standbyPermitted
    {text : PyStr} (h : standbyPermitted.HasMatch text) :
    mentions U "STANDBY" text = true := by
  obtain ⟨a, w, b, rfl, h⟩ := h
  rw [standbyPermitted, Rx.seqs, Rx.lang_seq] at h
  obtain ⟨u, v, rfl, hu, -⟩ := h
  rw [ciRx, Rx.lang_word, fits_ci_iff,
    show lit "STANDBY(" = lit "STANDBY" ++ lit "(" from rfl, List.map_append,
    List.map_eq_append_iff] at hu
  obtain ⟨u₁, u₂, rfl, hu₁, -⟩ := hu
  have hlang : Rx.Lang (ciRx "STANDBY") a.reverse u₁ (u₂ ++ v ++ b) := by
    rw [ciRx, Rx.lang_word, fits_ci_iff]
    exact hu₁
  have hletters : ∀ d ∈ lit "STANDBY", d.isUpperAscii = true ∧ d ≠ ch 'I' ∧ d ≠ ch 'K' := by
    decide
  simpa using mentions_of_lang hletters hlang a (u₂ ++ v ++ b)

/-- The flags of a detection that does not raise. -/
theorem detect_ok
    {isdigit : CodePoint → Bool} {connector : Connector} {fp : TopologyFingerprint}
    (h : detect U isdigit connector = .ok fp) :
    fp.isNativeHa = (mentions U "NATIVEHA" (qmstatusRaw connector) ||
        mentions U "INSYNC" (qmstatusRaw connector)) ∧
      fp.hasStandby = dspmqIndicatesStandby U connector ∧
      fp.isClustered = !(strip (clusqmgrRaw connector)).isEmpty := by
  rw [detect] at h
  cases hversion : normalizeMqVersion U isdigit
      (safeAttr connector "DISPLAY QMGR VERSION" "VERSION") with
  | error e =>
      rw [hversion] at h
      cases h
  | ok version =>
      rw [hversion] at h
      cases h
      exact ⟨rfl, rfl, rfl⟩

end Flags

section Claim

variable {U : UnicodeData} {isdigit : CodePoint → Bool} {connector : Connector}
    {fp : TopologyFingerprint}

/--
The flags of a detection rest on positive evidence exactly when the words it looks for
occur in positive answers only.
-/
theorem flags_grounded_iff
    (h : detect U isdigit connector = .ok fp) :
    Grounded U connector fp ↔ OnlyPositiveAnswers U connector := by
  obtain ⟨hnative, hstandby, hclustered⟩ := detect_ok h
  rw [dspmqIndicatesStandby_eq] at hstandby
  have hsearch : (rawData U connector).standbyPermitted = true ↔
      standbyPermitted.HasMatch (dspmqStandby connector) :=
    Rx.search_iff_hasMatch standbyPermitted _
  have hmatch : standbyPermitted.HasMatch (dspmqStandby connector) → fp.hasStandby = true := by
    intro hmatch
    rw [hstandby, mentions_of_standbyPermitted hmatch, Bool.or_true]
  have hrows : fp.isClustered = true ↔ ∃ c ∈ clusqmgrRaw connector, c.isSpace = false := by
    rw [hclustered, Bool.not_eq_true', isEmpty_strip_eq_false_iff]
  constructor
  · intro hgrounded
    refine ⟨fun hword => ?_, fun hword => ?_, fun hlive hsome => ?_⟩
    · exact hgrounded.nativeHa (by rw [hnative, Bool.or_eq_true]; exact hword)
    · rw [← hsearch, ← hgrounded.standby, hstandby, Bool.or_eq_true]
      exact hword
    · exact hgrounded.clustered hlive (hrows.mpr hsome)
  · intro honly
    refine ⟨fun hflag => ?_, ?_, fun hlive hflag => ?_⟩
    · rw [hnative, Bool.or_eq_true] at hflag
      exact honly.nativeHa hflag
    · rw [Bool.eq_iff_iff, hsearch]
      refine ⟨fun hflag => honly.standby ?_, hmatch⟩
      rw [hstandby, Bool.or_eq_true] at hflag
      exact hflag
    · exact honly.clustered hlive (hrows.mp hflag)

/-- A live host, by its reply to each command and its reply to every shell command. -/
def liveHost (reply : PyStr → PyStr) (shell : PyStr) : Connector where
  executeMqsc command :=
    .ok {
      rows := (parseMqscReply UnicodeData.basic (reply command)).map attrsRow
      raw := reply command }
  browseDlq _ _ := .error (lit "NotImplementedError")
  executeShell _ := .ok shell

theorem isLive_liveHost
    (reply : PyStr → PyStr) (shell : PyStr) :
    IsLive UnicodeData.basic (liveHost reply shell) := by
  rintro command result ⟨⟩
  rfl

/-- The replies to the two commands whose text is read, and no answer to the others. -/
def replies (qmstatus clusqmgr : String) (command : PyStr) : PyStr :=
  if command = lit "DISPLAY QMSTATUS" then lit qmstatus
  else if command = lit "DISPLAY CLUSQMGR(*) CLUSTER" then lit clusqmgr
  else []

/-- A host with a native HA queue manager in a cluster, and a standby permitted. -/
def grantedHost : Connector :=
  liveHost
    (replies "QMNAME(QM1) STATUS(RUNNING) NATIVEHA(YES)"
      "AMQ8441I: Display Cluster Queue Manager details.\n   CLUSQMGR(QM1) CLUSTER(C1)")
    (lit "QMNAME(QM1)   STANDBY(PERMITTED)")

/-- A host that answers no to all three. -/
def deniedHost : Connector :=
  liveHost
    (replies "QMNAME(DEMO_QM) STATUS(RUNNING) NATIVEHA(NO)"
      "AMQ8147E: IBM MQ object * not found.")
    (lit "QMNAME(DEMO_QM)   STANDBY(NOT APPLICABLE)")

theorem flags_grounded_granted :
    ∃ fp, detect UnicodeData.basic isDigitAscii grantedHost = .ok fp ∧
      Grounded UnicodeData.basic grantedHost fp := by
  have hdetect : detect UnicodeData.basic isDigitAscii grantedHost = .ok _ := rfl
  refine ⟨_, hdetect, (flags_grounded_iff hdetect).mpr
    ⟨fun _ => ⟨Or.inl ?_, ?_⟩, fun _ => ?_, ?_⟩⟩
  · decide +kernel
  · decide +kernel
  · decide +kernel
  · intro _ _
    decide +kernel

theorem denied_host_raises_flags :
    ∃ fp, detect UnicodeData.basic isDigitAscii deniedHost = .ok fp ∧
      fp.isNativeHa = true ∧ fp.hasStandby = true ∧ fp.isClustered = true ∧
      ¬ SaysNativeHa UnicodeData.basic (qmstatusRaw deniedHost) ∧
      (rawData UnicodeData.basic deniedHost).standbyPermitted = false ∧
      IsLive UnicodeData.basic deniedHost ∧
      parseMqscReply UnicodeData.basic (clusqmgrRaw deniedHost) = [] ∧
      ¬ Grounded UnicodeData.basic deniedHost fp := by
  have hnative : mentions UnicodeData.basic "NATIVEHA(NO)" (qmstatusRaw deniedHost) = true := by
    decide +kernel
  have hnot : ¬ SaysNativeHa UnicodeData.basic (qmstatusRaw deniedHost) := by
    rintro ⟨-, hno⟩
    rw [hnative] at hno
    cases hno
  have hflag : ∀ fp, detect UnicodeData.basic isDigitAscii deniedHost = .ok fp →
      fp.isNativeHa = true := by
    rintro fp ⟨⟩
    decide +kernel
  refine ⟨_, rfl, hflag _ rfl, ?_, ?_, hnot, ?_, isLive_liveHost _ _, ?_, ?_⟩
  · decide +kernel
  · decide +kernel
  · decide +kernel
  · decide +kernel
  · intro hgrounded
    exact hnot (hgrounded.nativeHa (hflag _ rfl))

end Claim

end Detect
end MqSentinel
