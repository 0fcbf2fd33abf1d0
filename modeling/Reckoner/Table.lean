/- Tables: values by name, in the order in which the names first came. -/
namespace Reckoner

structure Table (α : Type) where
  entries : List (String × α)
  names_distinct : (entries.map Prod.fst).Nodup

namespace Table

variable {α : Type}

def empty : Table α := ⟨[], by simp⟩

def names (table : Table α) : List String :=
  table.entries.map Prod.fst

def get? (table : Table α) (name : String) : Option α :=
  table.entries.lookup name

def contains (table : Table α) (name : String) : Bool :=
  table.names.contains name

/-- Puts a value under a name. A name that is there already keeps its place. -/
def insert (table : Table α) (name : String) (value : α) : Table α :=
  if present : table.contains name then
    { entries := table.entries.map fun entry => if entry.1 = name then (name, value) else entry
      names_distinct := by
        have same : (table.entries.map fun entry =>
            if entry.1 = name then (name, value) else entry).map Prod.fst = table.names := by
          simp only [names, List.map_map]
          apply List.map_congr_left
          intro entry _
          by_cases eq : entry.1 = name <;> simp [eq]
        rw [same]
        exact table.names_distinct }
  else
    { entries := table.entries ++ [(name, value)]
      names_distinct := by
        simp only [contains, names, List.contains_eq_mem, decide_eq_true_eq] at present
        simp only [List.map_append, List.map_cons, List.map_nil]
        refine List.nodup_append.mpr ⟨table.names_distinct, by simp, ?_⟩
        intro left member right last
        simp only [List.mem_singleton] at last
        intro eq
        subst eq last
        exact present member }

def ofList (entries : List (String × α)) : Table α :=
  entries.foldl (fun table entry => table.insert entry.1 entry.2) empty

theorem lookup_cons_of_ne {x key : String} (differs : x ≠ key) (value : α)
    (entries : List (String × α)) : ((key, value) :: entries).lookup x = entries.lookup x := by
  have unequal : (x == key) = false := by simpa using differs
  simp only [List.lookup_cons, unequal]

theorem lookup_map_replaced (entries : List (String × α)) (name x : String) (value : α) :
    (entries.map fun entry => if entry.1 = name then (name, value) else entry).lookup x
      = if x = name then (entries.lookup x).map fun _ => value else entries.lookup x := by
  induction entries with
  | nil => simp
  | cons entry entries ih =>
    obtain ⟨key, old⟩ := entry
    simp only [List.map_cons]
    by_cases here : x = key
    · subst x
      by_cases same : key = name <;> simp [same]
    · rw [lookup_cons_of_ne here, ← ih]
      by_cases same : key = name
      · rw [if_pos same, lookup_cons_of_ne (same ▸ here)]
      · rw [if_neg same, lookup_cons_of_ne here]

theorem get_eq_none_iff (table : Table α) (name : String) :
    table.get? name = none ↔ table.contains name = false := by
  simp only [get?, contains, names, List.lookup_eq_none_iff, List.contains_eq_mem, bne_iff_ne,
    decide_eq_false_iff_not, List.mem_map, not_exists, not_and]
  exact forall_congr' fun entry => forall_congr' fun _ => ne_comm

theorem contains_eq_isSome (table : Table α) (name : String) :
    table.contains name = (table.get? name).isSome := by
  have none := get_eq_none_iff table name
  cases found : table.get? name <;> simp_all

theorem mem_of_get {table : Table α} {name : String} {value : α}
    (found : table.get? name = some value) : (name, value) ∈ table.entries := by
  obtain ⟨before, after, eq, _⟩ := List.lookup_eq_some_iff.mp found
  rw [eq]
  simp

theorem get_insert (table : Table α) (name x : String) (value : α) :
    (table.insert name value).get? x = if x = name then some value else table.get? x := by
  unfold insert
  split
  · rename_i present
    simp only [get?, lookup_map_replaced]
    split
    · rename_i eq
      subst x
      have found : table.get? name ≠ none := by
        intro missing
        rw [(get_eq_none_iff table name).mp missing] at present
        exact Bool.false_ne_true present
      obtain ⟨old, found⟩ := Option.ne_none_iff_exists'.mp found
      simp only [get?] at found
      rw [found, Option.map_some]
    · rfl
  · rename_i absent
    have missing : table.get? name = none :=
      (get_eq_none_iff table name).mpr (Bool.eq_false_iff.mpr absent)
    simp only [get?] at missing ⊢
    rw [List.lookup_append]
    split
    · rename_i eq
      subst x
      rw [missing, List.lookup_cons_self, Option.none_or]
    · rename_i differs
      rw [lookup_cons_of_ne differs, List.lookup_nil, Option.or_none]

theorem names_insert (table : Table α) (name : String) (value : α) :
    (table.insert name value).names
      = if table.contains name then table.names else table.names ++ [name] := by
  unfold insert
  split
  · simp only [names, List.map_map]
    apply List.map_congr_left
    intro entry _
    by_cases eq : entry.1 = name <;> simp [eq]
  · simp [names]

end Table
end Reckoner
