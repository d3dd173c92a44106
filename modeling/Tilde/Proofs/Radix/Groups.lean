import Mathlib.Tactic.SplitIfs
import Tilde.Radix

/-!
# Groups of digits

Digits are grouped from the right: every group has as many digits as the interval says, only the
first one may have less. Between the groups there is a separator.

* `IsGrouped`: groups of such lengths;
* **`isGrouped_groups`**, `flatten_groups`: the groups of a digit string;
* **`length_grouped`**: how long a digit string gets by its separators.
-/

namespace Tilde

/-! ## Joining -/

namespace Text

theorem join_singleton (separator part : Text) : join separator [part] = part := by simp [join]

theorem join_cons_cons (separator a b : Text) (rest : List Text) :
    join separator (a :: b :: rest) = a ++ separator ++ join separator (b :: rest) := by
  simp [join]

theorem length_join (separator first : Text) (rest : List Text) :
    (join separator (first :: rest)).length =
      (first :: rest).flatten.length + rest.length * separator.length := by
  induction rest generalizing first with
  | nil => simp [join_singleton]
  | cons a rest ih =>
    rw [join_cons_cons, List.length_append, ih]
    simp only [List.flatten_cons, List.length_append, List.length_cons, Nat.succ_mul]
    omega

/-- Without the separators there are only the parts. -/
theorem filter_join {c : Char} {p : Char → Bool} (hc : p c = false) (parts : List Text) :
    (join [c] parts).filter p = parts.flatten.filter p := by
  cases parts with
  | nil => rfl
  | cons first rest =>
    induction rest generalizing first with
    | nil => simp [join_singleton]
    | cons a rest ih =>
      rw [join_cons_cons, List.filter_append, ih, List.flatten_cons, List.filter_append,
        List.filter_append]
      simp [hc]

end Text

namespace Radix

/-! ## Pieces -/

variable {k : Nat} {s : Text}

theorem flatten_pieces (k : Nat) (s : Text) : (pieces k s).flatten = s := by
  fun_induction pieces k s with
  | case1 => rfl
  | case2 s hs ih => rw [List.flatten_cons, ih, List.take_append_drop]

theorem length_of_mem_pieces {g : Text} (hs : k + 1 ∣ s.length) (hg : g ∈ pieces k s) :
    g.length = k + 1 := by
  fun_induction pieces k s with
  | case1 => cases hg
  | case2 s hne ih =>
    have hlong : k + 1 ≤ s.length := Nat.le_of_dvd (List.length_pos_iff.mpr hne) hs
    rcases List.mem_cons.mp hg with rfl | hg
    · exact List.length_take_of_le hlong
    · refine ih ?_ hg
      rw [List.length_drop]
      exact Nat.dvd_sub hs (Nat.dvd_refl _)

/-! ## Groups -/

/-- Groups of which all but the first one have so many digits, and that one at most so many, and at
least one. -/
def IsGrouped (interval : Nat) : List Text → Prop
  | [] => False
  | first :: rest =>
    1 ≤ first.length ∧ first.length ≤ interval ∧ ∀ g ∈ rest, g.length = interval

variable {interval : Int} {n : Nat}

theorem groups_pos (h : 0 < interval) (s : Text) :
    groups interval s =
      (if s.length % interval.toNat = 0 then [] else [s.take (s.length % interval.toNat)]) ++
        pieces (interval.toNat - 1) (s.drop (s.length % interval.toNat)) := by
  obtain ⟨k, hk⟩ : ∃ k, interval.toNat = k + 1 := ⟨interval.toNat - 1, by omega⟩
  unfold groups
  rw [hk]
  rfl

theorem flatten_groups (h : 0 < interval) (s : Text) : (groups interval s).flatten = s := by
  rw [groups_pos h, List.flatten_append, flatten_pieces]
  split_ifs with hnone
  · simp [hnone]
  · simp

/-- A digit string is grouped from the right. -/
theorem isGrouped_groups (h : 0 < interval) (hs : s ≠ []) :
    IsGrouped interval.toNat (groups interval s) := by
  have hinterval : interval.toNat - 1 + 1 = interval.toNat := by omega
  have hfirst : s.length % interval.toNat < interval.toNat := Nat.mod_lt _ (by omega)
  have hrest : interval.toNat ∣ (s.drop (s.length % interval.toNat)).length := by
    rw [List.length_drop]
    exact Nat.dvd_sub_mod s.length
  have hpieces : ∀ g ∈ pieces (interval.toNat - 1) (s.drop (s.length % interval.toNat)),
      g.length = interval.toNat := fun g hg => by
    rw [← hinterval] at hrest ⊢
    exact length_of_mem_pieces hrest (by rwa [← hinterval] at hg)
  rw [groups_pos h]
  split_ifs with hnone
  · -- then the first group is one of the pieces
    cases hp : pieces (interval.toNat - 1) (s.drop (s.length % interval.toNat)) with
    | nil =>
      have hflat := flatten_pieces (interval.toNat - 1) (s.drop (s.length % interval.toNat))
      rw [hp, hnone] at hflat
      exact absurd hflat.symm hs
    | cons first rest =>
      rw [hp] at hpieces
      have hlength := hpieces first List.mem_cons_self
      exact ⟨by omega, Nat.le_of_eq hlength, fun g hg => hpieces g (List.mem_cons_of_mem _ hg)⟩
  · have hlength : (s.take (s.length % interval.toNat)).length = s.length % interval.toNat :=
      List.length_take_of_le (Nat.mod_le _ _)
    exact ⟨by omega, by omega, hpieces⟩

/-- How many groups there are beside the first one. -/
theorem IsGrouped.length_flatten {first : Text} {rest : List Text}
    (h : IsGrouped n (first :: rest)) :
    ((first :: rest).flatten.length - 1) / n = rest.length := by
  obtain ⟨hsome, hfew, hrest⟩ := h
  have hsum : rest.flatten.length = rest.length * n := by
    have hmap : rest.map List.length = List.replicate rest.length n :=
      List.eq_replicate_iff.mpr ⟨List.length_map _, by simpa using hrest⟩
    rw [List.length_flatten, hmap, List.sum_replicate_nat]
  have hpos : 0 < n := by omega
  rw [List.flatten_cons, List.length_append, hsum]
  have hsplit : first.length + rest.length * n - 1 = (first.length - 1) + n * rest.length := by
    rw [Nat.mul_comm n]
    omega
  rw [hsplit, Nat.add_mul_div_left _ _ hpos, Nat.div_eq_of_lt (by omega), Nat.zero_add]

/-- A separator comes before every group but the first one. -/
theorem length_grouped (h : 0 < interval) (hs : s ≠ []) (separator : Text) :
    (grouped separator interval s).length =
      s.length + (s.length - 1) / interval.toNat * separator.length := by
  have hgroups := isGrouped_groups h hs
  have hflat := flatten_groups h s
  unfold grouped
  cases hg : groups interval s with
  | nil =>
    rw [hg] at hgroups
    exact hgroups.elim
  | cons first rest =>
    rw [hg] at hgroups hflat
    have hcount := hgroups.length_flatten
    rw [hflat] at hcount
    rw [Text.length_join, hflat, hcount]

end Radix

end Tilde
