import MqSentinel.ReportedRows

/-!
# Channels in doubt

The loop over the channel rows reports the first pattern that a row matches.  A failed
authorization and a failed connection come before the in-doubt state, so a row in doubt
that also carries one of their reason codes gives a finding of severity `HIGH` only.
-/

namespace MqSentinel
namespace Rcs
namespace Channels

section InDoubt

variable (U : UnicodeData) (registry : KCRegistry) (mqVersion : Option PyStr)

/-- IBM MQ says that the channel of the row is in doubt. -/
def SaysInDoubt (row : Row) : Prop :=
  U.upperStr (row.get "STATUS").toStr = lit "INDOUBT" ∨
    U.upperStr (row.get "CHSTATUS").toStr = lit "INDOUBT" ∨
      U.upperStr (row.get "INDOUBT").toStr = lit "YES"

/-- The reasons that the loop looks at before the in-doubt state. -/
def reasonsFirst : List Int :=
  [2035, 2009, 2059]

/-- The loop comes to the in-doubt state of the row. -/
def TakenForInDoubt (row : Row) : Prop :=
  inDoubt U row = true ∧ channelReason U row ∉ reasonsFirst

/-- The findings hold a critical one that calls the channel in doubt. -/
def InDoubtReported (name : PyStr) (findings : List RCSFinding) : Prop :=
  ∃ f ∈ findings, f.severity = .critical ∧ f.issue = lit "Channel " ++ name ++ lit " is in-doubt"

/-- A row gives a critical finding only for a channel in doubt. -/
theorem rowFinding_critical_iff
    (row : Row) (f : RCSFinding) :
    rowFinding U registry mqVersion row = some f ∧ f.severity = .critical ↔
      TakenForInDoubt U row ∧ f = findingIndoubt (channelName row) := by
  constructor
  · rintro ⟨hrow, hcritical⟩
    rcases rowFinding_cases hrow with rfl | rfl | ⟨⟨hdoubt, h2035, hconn⟩, rfl⟩ | rfl
    · cases hcritical
    · cases hcritical
    · refine ⟨⟨hdoubt, ?_⟩, rfl⟩
      rw [not_or] at hconn
      simp [reasonsFirst, h2035, hconn]
    · cases hcritical
  · rintro ⟨⟨hdoubt, hreason⟩, rfl⟩
    refine ⟨?_, rfl⟩
    have hnot : ¬ channelReason U row = 2035 ∧ ¬ channelReason U row = 2009 ∧
        ¬ channelReason U row = 2059 := by
      simpa [reasonsFirst] using hreason
    unfold rowFinding
    simp [hdoubt, hnot]

/-- The findings for the codes of the log are not critical. -/
theorem codeFinding_not_critical
    {amq : PyStr} {f : RCSFinding} (h : codeFinding U registry mqVersion amq = some f) :
    f.severity ≠ .critical := by
  obtain rfl := eq_of_codeFinding h
  simp [amqFinding]

/-- Which channels the matcher calls in doubt. -/
theorem inDoubtReported_iff
    (order : SetOrder) (raw : RawData) (name : PyStr) :
    InDoubtReported name (matchChannelFailures U registry mqVersion order raw) ↔
      ∃ row ∈ raw.channels, channelName row = name ∧ TakenForInDoubt U row := by
  constructor
  · rintro ⟨f, hf, hcritical, hissue⟩
    rcases List.mem_append.mp hf with hf | hf
    · obtain ⟨row, hmem, hrow⟩ := List.mem_filterMap.mp hf
      obtain ⟨htaken, rfl⟩ :=
        (rowFinding_critical_iff U registry mqVersion row f).mp ⟨hrow, hcritical⟩
      refine ⟨row, hmem, ?_, htaken⟩
      exact List.append_cancel_left (List.append_cancel_right hissue)
    · obtain ⟨amq, -, hcode⟩ := List.mem_filterMap.mp hf
      exact absurd hcritical (codeFinding_not_critical U registry mqVersion hcode)
  · rintro ⟨row, hmem, rfl, htaken⟩
    have hrow := (rowFinding_critical_iff U registry mqVersion row _).mpr ⟨htaken, rfl⟩
    exact ⟨_, List.mem_append_left _ (List.mem_filterMap.mpr ⟨row, hmem, hrow.1⟩), rfl, rfl⟩

/--
**Every channel that IBM MQ says is in doubt is reported as critical exactly when each has
a row whose in-doubt state the loop comes to.**
-/
theorem every_inDoubt_reported_iff
    (order : SetOrder) (raw : RawData) :
    (∀ row ∈ raw.channels, SaysInDoubt U row →
        InDoubtReported (channelName row)
          (matchChannelFailures U registry mqVersion order raw)) ↔
      ∀ row ∈ raw.channels, SaysInDoubt U row →
        ∃ seen ∈ raw.channels, channelName seen = channelName row ∧ TakenForInDoubt U seen := by
  simp only [inDoubtReported_iff]

/-- A channel in doubt whose last error was a failed authorization. -/
def unauthorizedInDoubt : RawData where
  channels :=
    [ ⟨[ (lit "CHANNEL", .str (lit "RCVR.A")), (lit "STATUS", .str (lit "INDOUBT")),
        (lit "REASON", .int 2035) ], by decide⟩ ]
  errorLogTail := []

/-- It is reported for the authorization alone. -/
theorem failed_authorization_hides_inDoubt :
    ¬ ∀ order : SetOrder, ∀ row ∈ unauthorizedInDoubt.channels,
      SaysInDoubt UnicodeData.basic row →
        InDoubtReported (channelName row)
          (matchChannelFailures UnicodeData.basic
            ⟨OrderedDict.empty, OrderedDict.empty, OrderedDict.empty⟩ none order
            unauthorizedInDoubt) := by
  intro h
  have hreported := h ⟨fun xs => xs.dedup, fun _ => List.Perm.refl _⟩ _
    (List.mem_singleton.mpr rfl) (Or.inl (by decide))
  rw [inDoubtReported_iff] at hreported
  obtain ⟨row, hrow, -, -, hreason⟩ := hreported
  obtain rfl := List.mem_singleton.mp hrow
  exact hreason (by decide)

end InDoubt

end Channels
end Rcs
end MqSentinel
