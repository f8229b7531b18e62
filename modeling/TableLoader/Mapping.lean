import TableLoader.Json.Decode

/-!
# Column mappings

Which column each source column is written to. A mapping lists its sources in ascending order and each
source once, so equal mappings are written alike.
-/
namespace TableLoader

structure Mapping where
  entries : List (String × String)
  ascending : entries.Pairwise fun a b => a.1 < b.1
  deriving DecidableEq

namespace Mapping

def empty : Mapping := ⟨[], .nil⟩

/-- Puts an entry in its place, in the stead of one with the same source. -/
def insertEntry (source target : String) : List (String × String) → List (String × String)
  | [] => [(source, target)]
  | entry :: entries =>
    if source < entry.1 then (source, target) :: entry :: entries
    else if entry.1 < source then entry :: insertEntry source target entries
    else (source, target) :: entries

theorem fst_mem_insertEntry {source target : String} {entries : List (String × String)}
    {e : String × String} (h : e ∈ insertEntry source target entries) :
    e.1 = source ∨ e ∈ entries := by
  induction entries with
  | nil => simp_all [insertEntry]
  | cons entry entries ih =>
    simp only [insertEntry] at h
    split at h
    · grind
    · split at h <;> grind

theorem ascending_insertEntry (source target : String) {entries : List (String × String)}
    (h : entries.Pairwise fun a b => a.1 < b.1) :
    (insertEntry source target entries).Pairwise fun a b => a.1 < b.1 := by
  induction entries with
  | nil => simp [insertEntry]
  | cons entry entries ih =>
    have ⟨first, rest⟩ := List.pairwise_cons.1 h
    simp only [insertEntry]
    split
    · next lt =>
      refine List.pairwise_cons.2 ⟨fun e he => ?_, h⟩
      rcases List.mem_cons.1 he with rfl | he
      · exact lt
      · exact String.lt_trans lt (first e he)
    · split
      · next lt =>
        refine List.pairwise_cons.2 ⟨fun e he => ?_, ih rest⟩
        rcases fst_mem_insertEntry he with eq | he
        · exact eq ▸ lt
        · exact first e he
      · next ge le =>
        have same : entry.1 = source := String.le_antisymm (String.not_lt.1 ge) (String.not_lt.1 le)
        exact List.pairwise_cons.2 ⟨fun e he => same ▸ first e he, rest⟩

def insert (m : Mapping) (source target : String) : Mapping :=
  ⟨insertEntry source target m.entries, ascending_insertEntry source target m.ascending⟩

def ofList (entries : List (String × String)) : Mapping :=
  entries.foldl (fun m e => m.insert e.1 e.2) empty

def targets (m : Mapping) : List String := m.entries.map (·.2)

/-- Whether some source is written to the column of this name. A target without a name is no column. -/
def hasTarget (m : Mapping) (name : String) : Bool :=
  m.targets.any fun target => target != "" && target == name

def isEmpty (m : Mapping) : Bool := m.entries.isEmpty

def toJson (m : Mapping) : Json :=
  .record (m.entries.map fun e => (e.1, .ofString e.2))

def ofJson? : Json → Option Mapping
  | .object entries => do
    let entries ← entries.mapM fun (key, value) => do
      let key ← key
      let value ← value.asString?
      pure (key, value)
    pure (ofList entries)
  | _ => none

end Mapping

end TableLoader
