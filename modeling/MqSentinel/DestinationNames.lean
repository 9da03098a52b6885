import MqSentinel.QuotedNames

/-!
# The destination that a dead-letter finding names

The fix steps and the remediation of a reason both name the most common destination of
its headers.  The fix steps replace an empty name by `<destination>`, the remediation does
not.  A blank name that is the most common one hides every real name from both.
-/

namespace MqSentinel
namespace Rcs
namespace DeadLetter

section Destination

/-- The reasons with a remediation. -/
def handledReasons : List Int :=
  [2035, 2080, 2030, 2051, 2053, 2079]

/-- The name that stands for a missing destination. -/
def placeholder : PyStr :=
  lit "<destination>"

/-- The destinations of the headers. -/
def destNames (group : List Row) : List PyStr :=
  group.map fun h => (h.getOr "dest_q_name" (.str [])).toStr

variable (blank : PyStr → Bool)

/-- The most frequent destination that is not blank, the first one among equals. -/
def destinationName (group : List Row) : PyStr :=
  (mostFrequent ((destNames group).filter fun name => !blank name)).getD placeholder

/-- The fix steps and the remediation of a finding name this destination. -/
def NamesOnly (finding : RCSFinding) (reason : Int) (dest : PyStr) : Prop :=
  finding.fixSteps = fixStepsForReason reason [(dest, 1)] ∧
    finding.remediationSteps = remediationForReason reason dest

theorem fixDestination_of_ne_nil
    {name : PyStr} {count : Nat} {rest : List (PyStr × Nat)} (h : name ≠ []) :
    fixDestination ((name, count) :: rest) = name := by
  cases name with
  | nil =>
      exact absurd rfl h
  | cons c name =>
      rfl

/-- The fix steps show their destination. -/
theorem fixStepsForReason_eq_iff
    {reason : Int} {top top' : List (PyStr × Nat)} :
    fixStepsForReason reason top = fixStepsForReason reason top' ↔
      fixDestination top = fixDestination top' := by
  constructor
  · intro h
    unfold fixStepsForReason at h
    dsimp only at h
    split_ifs at h <;> simpa using h
  · intro h
    unfold fixStepsForReason
    rw [h]

/-- The remediation shows its destination for some reasons only. -/
theorem remediationForReason_eq_iff
    {reason : Int} {dest dest' : PyStr} :
    remediationForReason reason dest = remediationForReason reason dest' ↔
      reason ∈ namesDestination → dest = dest' := by
  constructor
  · intro h hreason
    simp only [namesDestination, List.mem_cons, List.not_mem_nil, or_false] at hreason
    rcases hreason with rfl | rfl | rfl | rfl <;> simpa [remediationForReason] using h
  · intro h
    by_cases hreason : reason ∈ namesDestination
    · rw [h hreason]
    · simp only [namesDestination, List.mem_cons, List.not_mem_nil, or_false, not_or] at hreason
      simp [remediationForReason, hreason]

variable (registry : KCRegistry) (mqVersion : Option PyStr) (queueName : PyStr)

/-- What the two code paths take from the ranking of the destinations. -/
theorem namesOnly_findingForReason_iff
    {reason : Int} {group : List Row} {top dest : PyStr}
    (htop : mostFrequent (destNames group) = some top) (hdest : dest ≠ []) :
    NamesOnly (findingForReason registry mqVersion queueName reason group) reason dest ↔
      (top = dest ∨ top = [] ∧ dest = placeholder) ∧
        (reason ∈ namesDestination → top = dest) := by
  obtain ⟨count, hcommon⟩ : ∃ count, mostCommon (destCounts group) 1 = [(top, count)] := by
    have h := mostCommon_counter (destNames group)
    rw [htop] at h
    exact ⟨_, h⟩
  have hfix : (findingForReason registry mqVersion queueName reason group).fixSteps =
      fixStepsForReason reason [(top, count)] := by
    rw [← hcommon]
    rfl
  have hremediation :
      (findingForReason registry mqVersion queueName reason group).remediationSteps =
        remediationForReason reason top := by
    simp only [findingForReason, hcommon]
  rw [NamesOnly, hfix, hremediation, fixStepsForReason_eq_iff, remediationForReason_eq_iff,
    fixDestination_of_ne_nil hdest]
  refine and_congr_left fun _ => ?_
  by_cases hempty : top = []
  · subst hempty
    have hname : fixDestination [([], count)] = placeholder := rfl
    rw [hname, eq_comm]
    simp [Ne.symm hdest]
  · rw [fixDestination_of_ne_nil hempty]
    simp [hempty]

theorem blank_destinationName
    (hplaceholder : blank placeholder = false) (group : List Row) :
    blank (destinationName blank group) = false := by
  unfold destinationName
  cases hmost : mostFrequent ((destNames group).filter fun name => !blank name) with
  | none =>
      exact hplaceholder
  | some name =>
      have hmem := (List.mem_filter.mp (List.mem_of_find?_eq_some hmost)).2
      simpa using hmem

/-- A name that is not blank and ranks first is the one to name. -/
theorem destinationName_of_mostFrequent
    {group : List Row} {top : PyStr}
    (htop : mostFrequent (destNames group) = some top) (hblank : blank top = false) :
    destinationName blank group = top := by
  rw [destinationName, mostFrequent_filter htop (by rw [hblank]; rfl), Option.getD_some]

/--
The fix steps and the remediation name the most frequent destination that is not blank
if and only if the most frequent one of all is not blank, or it is empty, the name to give
is the placeholder and the remediation for the reason names no queue.
-/
theorem names_one_queue_iff
    (hempty : blank [] = true) (hplaceholder : blank placeholder = false)
    {reason : Int} (hreason : reason ∈ handledReasons) (group : List Row) :
    NamesOnly (findingForReason registry mqVersion queueName reason group) reason
        (destinationName blank group) ↔
      ∀ top, mostFrequent (destNames group) = some top →
        blank top = false ∨
          top = [] ∧ destinationName blank group = placeholder ∧ reason ∈ [2080, 2079] := by
  have hname := blank_destinationName blank hplaceholder group
  have hne : destinationName blank group ≠ [] := fun h => by
    rw [h, hempty] at hname
    cases hname
  have hsilent : reason ∈ [2080, 2079] ↔ reason ∉ namesDestination := by
    simp only [handledReasons, List.mem_cons, List.not_mem_nil, or_false] at hreason
    rcases hreason with rfl | rfl | rfl | rfl | rfl | rfl <;> decide
  cases htop : mostFrequent (destNames group) with
  | none =>
      -- without headers both paths fall back to the placeholder
      have hnil : group = [] := by
        simpa [destNames] using mostFrequent_eq_none_iff.mp htop
      subst hnil
      have hcommon : mostCommon (destCounts []) 1 = [] :=
        mostCommon_counter (destNames [])
      refine iff_of_true ⟨?_, ?_⟩ (fun top h => by cases h)
      · simp only [findingForReason, hcommon]
        rfl
      · simp only [findingForReason, hcommon]
        rfl
  | some top =>
      rw [namesOnly_findingForReason_iff registry mqVersion queueName htop hne, hsilent]
      constructor
      · rintro ⟨hfix, hremediation⟩ _ ⟨⟩
        by_cases hsame : top = destinationName blank group
        · exact Or.inl (hsame ▸ hname)
        · have hfallback := hfix.resolve_left hsame
          exact Or.inr ⟨hfallback.1, hfallback.2, fun hnames => hsame (hremediation hnames)⟩
      · intro hcondition
        rcases hcondition top rfl with hblank | ⟨htopnil, hdest, hnames⟩
        · have hsame := destinationName_of_mostFrequent blank htop hblank
          exact ⟨Or.inl hsame.symm, fun _ => hsame.symm⟩
        · exact ⟨Or.inr ⟨htopnil, hdest⟩, fun h => absurd h hnames⟩

/-- A header of an unauthorized put to a queue. -/
def unauthorizedPut (name : String) : Row :=
  OrderedDict.ofList [(lit "reason_code", .int 2035), (lit "dest_q_name", .str (lit name))]

/-- White space names no queue. -/
def onlySpaces (name : PyStr) : Bool :=
  (strip name).isEmpty

theorem names_one_queue_orders :
    NamesOnly
      (findingForReason noPages none (lit "DEAD.LETTERS") 2035
        [unauthorizedPut "ORDERS", unauthorizedPut ""])
      2035 (lit "ORDERS") := by
  have hdest : destinationName onlySpaces [unauthorizedPut "ORDERS", unauthorizedPut ""] =
      lit "ORDERS" := by
    decide +kernel
  rw [← hdest]
  refine (names_one_queue_iff onlySpaces noPages none (lit "DEAD.LETTERS") (by decide)
    (by decide +kernel) (by decide) _).mpr ?_
  intro top htop
  have hfirst : mostFrequent
      (destNames [unauthorizedPut "ORDERS", unauthorizedPut ""]) = some (lit "ORDERS") := by
    decide +kernel
  obtain rfl := Option.some_inj.mp (hfirst.symm.trans htop)
  exact Or.inl (by decide +kernel)

/-- Two headers without a name outvote the queue of the third one. -/
theorem nameless_outvote_orders :
    destinationName List.isEmpty
        [unauthorizedPut "", unauthorizedPut "", unauthorizedPut "ORDERS"] = lit "ORDERS" ∧
      ¬ NamesOnly
        (findingForReason noPages none (lit "DEAD.LETTERS") 2035
          [unauthorizedPut "", unauthorizedPut "", unauthorizedPut "ORDERS"])
        2035 (lit "ORDERS") ∧
      ¬ NamesOnly
        (findingForReason noPages none (lit "DEAD.LETTERS") 2035 [unauthorizedPut ""])
        2035 (destinationName List.isEmpty [unauthorizedPut ""]) := by
  have hone : mostFrequent (destNames [unauthorizedPut ""]) = some [] := by
    decide +kernel
  have hthree : mostFrequent
      (destNames [unauthorizedPut "", unauthorizedPut "", unauthorizedPut "ORDERS"]) =
        some [] := by
    decide +kernel
  refine ⟨by decide +kernel, ?_, ?_⟩
  · rw [namesOnly_findingForReason_iff noPages none _ hthree (by decide)]
    decide +kernel
  · rw [namesOnly_findingForReason_iff noPages none _ hone (by decide +kernel)]
    decide +kernel

end Destination

end DeadLetter
end Rcs
end MqSentinel
