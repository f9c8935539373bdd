import Mathlib.Data.List.Nodup
import Mathlib.Data.List.Sigma

/-!
# Rows of entries

A list of rows, whose entries are known by the index of the row and that in the row: where a value stands, and how often.
-/

namespace PrimePool.General

variable {β : Type}

def entry (rows : List (List β)) (i j : Nat) : Option β := rows[i]?.bind fun row => row[j]?

theorem set_same {row : List β} {j : Nat} {b : β} (found : row[j]? = some b) : row.set j b = row := by
  obtain ⟨inside, rfl⟩ := List.getElem?_eq_some_iff.mp found
  exact List.set_getElem_self inside

theorem entry_set {rows : List (List β)} {i : Nat} {row : List β} (found : rows[i]? = some row) (row' : List β)
    (i' j : Nat) : entry (rows.set i row') i' j = if i = i' then row'[j]? else entry rows i' j := by
  obtain ⟨inside, -⟩ := List.getElem?_eq_some_iff.mp found
  rw [entry, List.getElem?_set]
  by_cases same : i = i'
  · rw [if_pos same, if_pos same, if_pos inside]
    rfl
  · rw [if_neg same, if_neg same]
    rfl

variable [BEq β]

def positions (b : β) (rows : List (List β)) : List (Nat × Nat) :=
  rows.zipIdx.flatMap fun row => (row.1.zipIdx.filter fun entry => entry.1 == b).map fun entry => (row.2, entry.2)

theorem mem_positions [LawfulBEq β] (b : β) (rows : List (List β)) (i j : Nat) :
    (i, j) ∈ positions b rows ↔ entry rows i j = some b := by
  simp only [positions, entry, List.mem_flatMap, List.mem_map, List.mem_filter, List.mem_zipIdx_iff_getElem?,
    Prod.mk.injEq, beq_iff_eq, Option.bind_eq_some_iff]
  constructor
  · rintro ⟨⟨row, _⟩, found, ⟨_, _⟩, ⟨inside, rfl⟩, rfl, rfl⟩
    exact ⟨row, found, inside⟩
  · rintro ⟨row, found, inside⟩
    exact ⟨(row, i), found, (b, j), ⟨inside, rfl⟩, rfl, rfl⟩

theorem nodup_positions (b : β) (rows : List (List β)) : (positions b rows).Nodup := by
  rw [positions, List.nodup_flatMap]
  constructor
  · intro row _
    have once : row.1.zipIdx.Pairwise fun first second => first.2 ≠ second.2 :=
      List.pairwise_map.mp (List.nodup_zipIdx_map_snd row.1)
    apply List.pairwise_map.mpr
    refine (once.filter _).imp ?_
    intro first second different same
    exact different (congrArg (fun position => position.2) same)
  · have once : rows.zipIdx.Pairwise fun first second => first.2 ≠ second.2 :=
      List.pairwise_map.mp (List.nodup_zipIdx_map_snd rows)
    refine once.imp fun {first second} different => ?_
    rintro ⟨i, j⟩ inFirst inSecond
    obtain ⟨_, -, same⟩ := List.mem_map.mp inFirst
    obtain ⟨_, -, same'⟩ := List.mem_map.mp inSecond
    exact different ((congrArg Prod.fst same).trans (congrArg Prod.fst same').symm)

theorem length_positions (b : β) (rows : List (List β)) : (positions b rows).length = rows.flatten.count b := by
  have inRow (row : List β) : (row.zipIdx.filter fun entry => entry.1 == b).length = row.count b := by
    have values := List.countP_map (p := fun value => value == b) (f := Prod.fst) (l := row.zipIdx)
    rw [List.zipIdx_map_fst] at values
    rw [← List.countP_eq_length_filter]
    exact values.symm
  rw [positions, List.length_flatMap, List.count_flatten]
  conv_rhs => rw [← List.zipIdx_map_fst 0 rows, List.map_map]
  congr 1
  apply List.map_congr_left
  intro row _
  rw [List.length_map, inRow]
  rfl

theorem count_flatten_set {rows : List (List β)} {i : Nat} {row : List β} (found : rows[i]? = some row)
    (row' : List β) (b : β) :
    (rows.set i row').flatten.count b + row.count b = rows.flatten.count b + row'.count b := by
  obtain ⟨inside, same⟩ := List.getElem?_eq_some_iff.mp found
  have cut := List.take_append_drop i rows
  rw [List.drop_eq_getElem_cons inside, same] at cut
  rw [List.set_eq_take_append_cons_drop, if_pos inside]
  conv_rhs => rw [← cut]
  simp only [List.flatten_append, List.flatten_cons, List.count_append]
  omega

theorem count_flatten_replace [LawfulBEq β] {rows : List (List β)} {i j : Nat} {row : List β} {b c : β}
    (found : rows[i]? = some row) (present : row[j]? = some b) (different : c ≠ b) :
    (rows.set i (row.set j c)).flatten.count b < rows.flatten.count b := by
  obtain ⟨inside, same⟩ := List.getElem?_eq_some_iff.mp present
  have counts := count_flatten_set found (row.set j c) b
  have member : 0 < row.count b := List.count_pos_iff.mpr (List.mem_of_getElem? present)
  have replaced : (row.set j c).count b = row.count b - 1 := by
    rw [List.count_set inside, same, if_pos (beq_self_eq_true b), if_neg (by simpa using different)]
    rfl
  omega

end PrimePool.General
