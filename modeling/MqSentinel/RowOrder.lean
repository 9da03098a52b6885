import MqSentinel.ClusterMatcher
import MqSentinel.ZosMatcher

/-!
# The order of the rows

Queue managers list their objects in an order of their own.  The checks of the cluster,
Native HA and z/OS matchers treat each row for itself, or count rows, or ask whether there
is one of a kind; none of that depends on the order.  The check for full repositories
groups the rows by cluster and says of a group only how many rows it has.
-/

namespace MqSentinel
namespace Rcs

variable (U : UnicodeData) (registry : KCRegistry) (mqVersion : Option PyStr)

theorem nil_iff_of_perm
    {α : Type*} {xs ys : List α} (h : xs.Perm ys) :
    xs = [] ↔ ys = [] := by
  rw [← List.length_eq_zero_iff, h.length_eq, List.length_eq_zero_iff]

section Cluster

open Cluster

variable {rows rows' : List Row}

/-- A clock that stands still. -/
def Cluster.Clock.fixed (now : Int) : Clock where
  start := now
  atRow := fun _ => now

theorem checkFullRepos_perm (h : rows.Perm rows') (reposText : PyStr) :
    (checkFullRepos U registry mqVersion rows reposText).Perm
      (checkFullRepos U registry mqVersion rows' reposText) := by
  refine filterMap_groupBy_perm ?_ (h.filter _)
  intro cluster members members' hmembers
  have hrepos := hmembers.filter fun m => upperCell U m "QMTYPE" = lit "REPOS"
  have hnone : members.filter (fun m => upperCell U m "QMTYPE" = lit "REPOS") = [] ↔
      members'.filter (fun m => upperCell U m "QMTYPE" = lit "REPOS") = [] :=
    nil_iff_of_perm hrepos
  have hfinding : findingNoFullRepo registry mqVersion cluster members =
      findingNoFullRepo registry mqVersion cluster members' := by
    simp only [findingNoFullRepo, hmembers.length_eq]
  simp only [hnone, hfinding]

/-- With a clock that stands still it does not matter at which row the age is computed. -/
theorem checkStaleEntries_fixed (now : Int) (rows : List Row) :
    checkStaleEntries U registry mqVersion (.fixed now) rows =
      rows.filterMap fun r =>
        (staleAge U now now r).map (findingStaleEntry U registry mqVersion r (clusdate r)) := by
  conv_rhs => rw [← List.zipIdx_map_fst 0 rows, List.filterMap_map]
  rfl

theorem checkSelfOnlyMembership_perm (h : rows.Perm rows') (thisQm : PyStr) :
    checkSelfOnlyMembership rows thisQm = checkSelfOnlyMembership rows' thisQm := by
  have hother : (rows.any fun r => (r.getOr "CLUSQMGR" (.str [])).toStr != thisQm) =
      rows'.any fun r => (r.getOr "CLUSQMGR" (.str [])).toStr != thisQm :=
    h.any_eq
  simp only [checkSelfOnlyMembership, nil_iff_of_perm h, hother]

theorem matchClusterFindings_perm (now : Int) (raw : Cluster.RawData)
    (h : raw.clusqmgrs.Perm rows) :
    (matchClusterFindings U registry mqVersion (.fixed now) raw).Perm
      (matchClusterFindings U registry mqVersion (.fixed now) { raw with clusqmgrs := rows }) := by
  simp only [matchClusterFindings, nil_iff_of_perm h]
  split_ifs
  · exact .refl _
  · rw [checkStaleEntries_fixed, checkStaleEntries_fixed, checkSelfOnlyMembership_perm h]
    exact ((((checkFullRepos_perm U registry mqVersion h _).append (h.filterMap _)).append
      (h.filterMap _)).append (h.filterMap _)).append (.refl _)

end Cluster

section NativeHa

open Rcs.NativeHa

variable {rows : List Row}

/-- The quorum is a matter of counts. -/
theorem checkQuorum_perm (raw : NativeHa.RawData) (h : raw.instances.Perm rows) :
    checkQuorum U registry mqVersion raw =
      checkQuorum U registry mqVersion { raw with instances := rows } := by
  simp only [checkQuorum, nil_iff_of_perm h, h.length_eq, (h.filter (isInSync U)).length_eq]

theorem checkActiveInstance_perm {instances : List Row} (h : instances.Perm rows) :
    checkActiveInstance U registry mqVersion instances =
      checkActiveInstance U registry mqVersion rows := by
  simp only [checkActiveInstance, h.length_eq, (h.filter (isActive U)).length_eq]

/-- A quorum that cannot be read ends both runs; else the findings are the same. -/
theorem matchNativeHaFindings_perm (raw : NativeHa.RawData) (h : raw.instances.Perm rows) :
    Option.Rel List.Perm (matchNativeHaFindings U registry mqVersion raw)
      (matchNativeHaFindings U registry mqVersion { raw with instances := rows }) := by
  simp only [matchNativeHaFindings, nil_iff_of_perm h]
  split_ifs
  · exact .some (.refl _)
  · rw [checkQuorum_perm U registry mqVersion raw h,
      checkActiveInstance_perm U registry mqVersion h]
    cases checkQuorum U registry mqVersion { raw with instances := rows } with
    | none =>
        exact .none
    | some quorum =>
        exact .some ((((List.Perm.refl _).append (h.filterMap _)).append
          (h.filterMap _)).append (.refl _))

end NativeHa

section Zos

open Rcs.Zos

/-- The same report with the rows in another order. -/
structure Zos.Reordered (raw raw' : Zos.RawData) : Prop where
  qsgName : raw.group.qsgName = raw'.group.qsgName
  members : raw.group.members.Perm raw'.group.members
  chin : raw.chin = raw'.chin
  pagesets : raw.pagesets.Perm raw'.pagesets
  bufferpools : raw.bufferpools.Perm raw'.bufferpools
  cfStructures : raw.cfStructures.Perm raw'.cfStructures

theorem matchZosFindings_perm {raw raw' : Zos.RawData} (h : Zos.Reordered raw raw') :
    (matchZosFindings U registry mqVersion raw).Perm
      (matchZosFindings U registry mqVersion raw') := by
  have hmembers : (checkQsgMembers U registry mqVersion raw.group).Perm
      (checkQsgMembers U registry mqVersion raw'.group) := by
    simp only [checkQsgMembers, h.qsgName]
    exact h.members.filterMap _
  rw [matchZosFindings, matchZosFindings, h.chin]
  exact (((hmembers.append (.refl _)).append (h.pagesets.filterMap _)).append
    (h.bufferpools.filterMap _)).append (h.cfStructures.filterMap _)

end Zos

/--
For every input the three matchers find the same, each finding as often, in whatever order
the rows are listed; the clock of the cluster matcher stands still.
-/
theorem findings_order_independent :
    (∀ now raw rows, raw.clusqmgrs.Perm rows →
      (Cluster.matchClusterFindings U registry mqVersion (.fixed now) raw).Perm
        (Cluster.matchClusterFindings U registry mqVersion (.fixed now)
          { raw with clusqmgrs := rows })) ∧
    (∀ raw rows, raw.instances.Perm rows →
      Option.Rel List.Perm (NativeHa.matchNativeHaFindings U registry mqVersion raw)
        (NativeHa.matchNativeHaFindings U registry mqVersion { raw with instances := rows })) ∧
    ∀ raw raw', Zos.Reordered raw raw' →
      (Zos.matchZosFindings U registry mqVersion raw).Perm
        (Zos.matchZosFindings U registry mqVersion raw') :=
  ⟨fun now raw _ h => matchClusterFindings_perm U registry mqVersion now raw h,
    fun raw _ h => matchNativeHaFindings_perm U registry mqVersion raw h,
    fun _ _ h => matchZosFindings_perm U registry mqVersion h⟩

/-- The row of an instance. -/
def instanceRow (name role insync : String) : Row :=
  OrderedDict.ofList
    [(lit "INSTANCE", .str (lit name)), (lit "ROLE", .str (lit role)),
      (lit "INSYNC", .str (lit insync))]

/-- A replica in front of the active instance, and behind it. -/
theorem findings_order_independent_swap :
    Option.Rel List.Perm
      (NativeHa.matchNativeHaFindings UnicodeData.basic
        ⟨OrderedDict.empty, OrderedDict.empty, OrderedDict.empty⟩ none
        { instances := [instanceRow "QM-0" "ACTIVE" "YES", instanceRow "QM-1" "REPLICA" "NO"] })
      (NativeHa.matchNativeHaFindings UnicodeData.basic
        ⟨OrderedDict.empty, OrderedDict.empty, OrderedDict.empty⟩ none
        { instances := [instanceRow "QM-1" "REPLICA" "NO", instanceRow "QM-0" "ACTIVE" "YES"] }) :=
  (findings_order_independent UnicodeData.basic
    ⟨OrderedDict.empty, OrderedDict.empty, OrderedDict.empty⟩ none).2.1
    { instances := [instanceRow "QM-0" "ACTIVE" "YES", instanceRow "QM-1" "REPLICA" "NO"] }
    [instanceRow "QM-1" "REPLICA" "NO", instanceRow "QM-0" "ACTIVE" "YES"] (List.Perm.swap _ _ _)

end Rcs
end MqSentinel
