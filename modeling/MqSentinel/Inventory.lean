import MqSentinel.PyText
import MqSentinel.OrderedDict

/-!
# The queue manager inventory

`QMEntry` is one configured queue manager.  `InMemoryInventory` is built from a
list of entries by a dict comprehension: where two entries carry the same name
the later one is kept, in the place of the first.
-/

namespace MqSentinel

inductive Topology where
  | standalone
  | multiInstance
  | rdqm
  | nativeHa
  | nativeHaCrr
  | uniformCluster
  | traditionalCluster
  | zosQsg
  | appliance
  | containerized
  | unknown
deriving DecidableEq

/-- The value of the `StrEnum` member. -/
def Topology.value : Topology → PyStr
  | standalone => lit "standalone"
  | multiInstance => lit "multi_instance"
  | rdqm => lit "rdqm"
  | nativeHa => lit "native_ha"
  | nativeHaCrr => lit "native_ha_crr"
  | uniformCluster => lit "uniform_cluster"
  | traditionalCluster => lit "traditional_cluster"
  | zosQsg => lit "zos_qsg"
  | appliance => lit "appliance"
  | containerized => lit "containerized"
  | unknown => lit "unknown"

/-- The environments the entry model admits. -/
inductive Environment where
  | dev
  | staging
  | prod
  | nonprod
deriving DecidableEq

def Environment.value : Environment → PyStr
  | dev => lit "dev"
  | staging => lit "staging"
  | prod => lit "prod"
  | nonprod => lit "nonprod"

/-- A queue manager inventory entry. -/
structure QMEntry where
  qmName : PyStr
  host : PyStr
  port : Nat
  channel : PyStr
  environment : Environment
  topologyHint : Topology := .unknown
  tenant : PyStr := lit "default"
  secretRef : PyStr
  cipherSpec : Option PyStr := none
deriving DecidableEq

/-- The in-memory registry. -/
structure InMemoryInventory where
  entries : OrderedDict PyStr QMEntry
  keyed : ∀ p ∈ entries.items, p.2.qmName = p.1

namespace InMemoryInventory

theorem keyed_set
    (d : OrderedDict PyStr QMEntry)
    (h : ∀ p ∈ d.items, p.2.qmName = p.1)
    (e : QMEntry) :
    ∀ p ∈ (d.set e.qmName e).items, p.2.qmName = p.1 := by
  change ∀ p ∈ OrderedDict.assign e.qmName e d.items, p.2.qmName = p.1
  generalize d.items = ps at h
  induction ps with
  | nil =>
      simp [OrderedDict.assign]
  | cons q ps ih =>
      intro p hp
      by_cases hq : q.1 = e.qmName
      · simp only [OrderedDict.assign, hq, if_true, List.mem_cons] at hp
        rcases hp with rfl | hp
        · rfl
        · exact h p (List.mem_cons_of_mem _ hp)
      · simp only [OrderedDict.assign, hq, if_false, List.mem_cons] at hp
        rcases hp with rfl | hp
        · exact h p (by simp)
        · exact ih (fun p hp => h p (List.mem_cons_of_mem _ hp)) p hp

/-- `InMemoryInventory(entries)`. -/
def ofEntries (es : List QMEntry) : InMemoryInventory :=
  es.foldl (fun inv e => ⟨inv.entries.set e.qmName e, keyed_set inv.entries inv.keyed e⟩)
    ⟨OrderedDict.empty, by simp [OrderedDict.empty]⟩

/-- `get`: `none` is the `LookupError` for a name that is not in the inventory. -/
def get? (inv : InMemoryInventory) (qmName : PyStr) : Option QMEntry :=
  inv.entries.get? qmName

def listAll (inv : InMemoryInventory) : List QMEntry :=
  inv.entries.values

end InMemoryInventory

end MqSentinel
