import Mathlib.Data.List.Basic

/-!
# Lists cut into blocks

`fullBlocks n` cuts a list into blocks of `n` items and leaves `remainder n` over.  A list that
arrives in pieces is cut the same way when the remainder of each piece is put in front of the next.
-/

namespace MaddyWeb.Library

variable {α : Type}

def fullBlocks (n : Nat) (l : List α) : List (List α) :=
  (List.range (l.length / n)).map fun i => (l.drop (n * i)).take n

def remainder (n : Nat) (l : List α) : List α := l.drop (l.length - l.length % n)

variable {n : Nat}

@[simp] theorem fullBlocks_nil : fullBlocks n ([] : List α) = [] := by
  simp [fullBlocks]

@[simp] theorem remainder_nil : remainder n ([] : List α) = [] := by
  simp [remainder]

theorem length_of_mem_fullBlocks {l block : List α} (h : block ∈ fullBlocks n l) :
    block.length = n := by
  simp only [fullBlocks, List.mem_map, List.mem_range] at h
  obtain ⟨i, hi, rfl⟩ := h
  have hfits : n * i + n ≤ l.length := by
    calc n * i + n = n * (i + 1) := by rw [Nat.mul_succ]
      _ ≤ n * (l.length / n) := Nat.mul_le_mul_left n hi
      _ ≤ l.length := Nat.mul_div_le l.length n
  rw [List.length_take, List.length_drop]
  omega

theorem length_remainder (l : List α) : (remainder n l).length = l.length % n := by
  have hle := Nat.mod_le l.length n
  rw [remainder, List.length_drop]
  omega

theorem drop_front (front rest : List α) (i : Nat) :
    (front ++ rest).drop (front.length + i) = rest.drop i := by
  rw [List.drop_append, List.drop_of_length_le (by omega), Nat.add_sub_cancel_left, List.nil_append]

/-- A front of full blocks is cut on its own. -/
theorem fullBlocks_append (hn : 0 < n) {k : Nat} {front : List α} (hfront : front.length = n * k)
    (rest : List α) : fullBlocks n (front ++ rest) = fullBlocks n front ++ fullBlocks n rest := by
  have hcount : (front ++ rest).length / n = k + rest.length / n := by
    rw [List.length_append, hfront, Nat.mul_add_div hn]
  have hown : front.length / n = k := by
    rw [hfront, Nat.mul_div_cancel_left k hn]
  unfold fullBlocks
  rw [hcount, hown, List.range_add, List.map_append, List.map_map]
  congr 1
  · apply List.map_congr_left
    intro i hi
    have hfits : n * i + n ≤ front.length := by
      rw [hfront]
      calc n * i + n = n * (i + 1) := by rw [Nat.mul_succ]
        _ ≤ n * k := Nat.mul_le_mul_left n (List.mem_range.mp hi)
    rw [List.drop_append_of_le_length (by omega),
      List.take_append_of_le_length (by rw [List.length_drop]; omega)]
  · apply List.map_congr_left
    intro i _
    show ((front ++ rest).drop (n * (k + i))).take n = _
    rw [Nat.mul_add, ← hfront, drop_front]

theorem remainder_append {k : Nat} {front : List α} (hfront : front.length = n * k)
    (rest : List α) : remainder n (front ++ rest) = remainder n rest := by
  have hle := Nat.mod_le rest.length n
  have hdrop : (front ++ rest).length - (front ++ rest).length % n =
      front.length + (rest.length - rest.length % n) := by
    rw [List.length_append, hfront, Nat.mul_add_mod]
    omega
  rw [remainder, hdrop, drop_front, remainder]

theorem fullBlocks_of_length_lt {l : List α} (h : l.length < n) : fullBlocks n l = [] := by
  rw [fullBlocks, Nat.div_eq_of_lt h]
  rfl

theorem fullBlocks_of_length_eq {l : List α} (hn : 0 < n) (h : l.length = n) :
    fullBlocks n l = [l] := by
  rw [fullBlocks, h, Nat.div_self hn]
  simp [← h]

/-- The blocks and the remainder are the whole list. -/
theorem flatten_fullBlocks (hn : 0 < n) (l : List α) :
    (fullBlocks n l).flatten ++ remainder n l = l := by
  induction hlength : l.length using Nat.strongRecOn generalizing l with
  | _ length ih =>
      by_cases hshort : l.length < n
      · rw [fullBlocks_of_length_lt hshort, remainder, Nat.mod_eq_of_lt hshort]
        simp
      · have hfront : (l.take n).length = n := by
          rw [List.length_take]
          omega
        have hwhole : (l.take n).length = n * 1 := by omega
        have hrest := ih (l.drop n).length (by rw [List.length_drop]; omega) (l.drop n) rfl
        calc (fullBlocks n l).flatten ++ remainder n l
            = (fullBlocks n (l.take n ++ l.drop n)).flatten ++
                remainder n (l.take n ++ l.drop n) := by rw [List.take_append_drop]
          _ = l.take n ++ ((fullBlocks n (l.drop n)).flatten ++ remainder n (l.drop n)) := by
              rw [fullBlocks_append hn hwhole, remainder_append hwhole,
                fullBlocks_of_length_eq hn hfront]
              simp
          _ = l := by rw [hrest, List.take_append_drop]

theorem length_flatten_fullBlocks (hn : 0 < n) (l : List α) :
    (fullBlocks n l).flatten.length = n * (l.length / n) := by
  have hwhole := congrArg List.length (flatten_fullBlocks hn l)
  have hdiv := Nat.div_add_mod l.length n
  rw [List.length_append, length_remainder] at hwhole
  omega

/-- A longer list is cut like the remainder of its front and what follows. -/
theorem fullBlocks_step (hn : 0 < n) (l rest : List α) :
    fullBlocks n (l ++ rest) = fullBlocks n l ++ fullBlocks n (remainder n l ++ rest) := by
  have hsplit := fullBlocks_append hn (length_flatten_fullBlocks hn l)
  have hown := hsplit (remainder n l)
  rw [flatten_fullBlocks hn,
    fullBlocks_of_length_lt (l := remainder n l) (by
      rw [length_remainder]
      exact Nat.mod_lt _ hn), List.append_nil] at hown
  calc fullBlocks n (l ++ rest)
      = fullBlocks n ((fullBlocks n l).flatten ++ (remainder n l ++ rest)) := by
        rw [← List.append_assoc, flatten_fullBlocks hn]
    _ = fullBlocks n l ++ fullBlocks n (remainder n l ++ rest) := by rw [hsplit, ← hown]

theorem remainder_step (hn : 0 < n) (l rest : List α) :
    remainder n (l ++ rest) = remainder n (remainder n l ++ rest) := by
  calc remainder n (l ++ rest)
      = remainder n ((fullBlocks n l).flatten ++ (remainder n l ++ rest)) := by
        rw [← List.append_assoc, flatten_fullBlocks hn]
    _ = remainder n (remainder n l ++ rest) := remainder_append (length_flatten_fullBlocks hn l) _

end MaddyWeb.Library
