/-
  ShaderFlow.Proofs.Basic — results that are there, lists that match, and tables.

  A result of several steps is there only if each step had one, and fails as one of the steps
  does.  Lists match element by element.  Of keys that come again the first is kept.  A table
  answers for a key what was last put under it.

  Main definitions:
    * `FailsOnly`    — what the error can be where a result is not there;
    * `Table.putAll` — a table with other values for several keys.
-/

import Mathlib.Data.List.Forall2
import ShaderFlow.Table

namespace ShaderFlow

/-! ## §1. Results that are there -/

section Results

variable {ε α β : Type}

theorem bind_eq_ok {x : Except ε α} {f : α → Except ε β} {y : β} :
    x >>= f = .ok y ↔ ∃ a, x = .ok a ∧ f a = .ok y := by
  cases x <;> simp [Bind.bind, Except.bind]

theorem map_eq_ok {x : Except ε α} {f : α → β} {y : β} :
    x.map f = .ok y ↔ ∃ a, x = .ok a ∧ f a = y := by
  cases x <;> simp [Except.map]

theorem pure_eq_ok {a b : α} : (pure a : Except ε α) = .ok b ↔ a = b := by
  simp [pure, Except.pure]

/-- Mapping succeeds when it does so for each element. -/
theorem mapM_eq_ok {f : α → Except ε β} :
    ∀ {xs : List α} {ys : List β},
      xs.mapM f = .ok ys ↔ List.Forall₂ (fun x y => f x = .ok y) xs ys
  | [], ys => by
    rw [List.mapM_nil, pure_eq_ok, List.forall₂_nil_left_iff, eq_comm]
  | x :: xs, ys => by
    rw [List.mapM_cons, bind_eq_ok, List.forall₂_cons_left_iff]
    constructor
    · rintro ⟨y, hy, hrest⟩
      obtain ⟨rest, hrest, hys⟩ := bind_eq_ok.mp hrest
      exact ⟨y, rest, hy, mapM_eq_ok.mp hrest, (pure_eq_ok.mp hys).symm⟩
    · rintro ⟨y, rest, hy, hrest, rfl⟩
      exact ⟨y, hy, bind_eq_ok.mpr ⟨rest, mapM_eq_ok.mpr hrest, rfl⟩⟩

theorem bind_eq_error {x : Except ε α} {f : α → Except ε β} {e : ε} :
    x >>= f = .error e ↔ x = .error e ∨ ∃ a, x = .ok a ∧ f a = .error e := by
  cases x <;> simp [Bind.bind, Except.bind]

theorem map_eq_error {x : Except ε α} {f : α → β} {e : ε} :
    x.map f = .error e ↔ x = .error e := by
  cases x <;> simp [Except.map]

/-- A result is there whatever would be made of the error. -/
theorem mapError_eq_ok {ε' : Type} {x : Except ε α} {f : ε → ε'} {a : α} :
    x.mapError f = .ok a ↔ x = .ok a := by
  cases x <;> simp [Except.mapError]

/-- What comes behind a check is there if the check passes. -/
theorem guard_eq_ok {refused : Bool} {e : ε} {x : Except ε α} {y : α} :
    (if refused then .error e else x) = .ok y ↔ refused = false ∧ x = .ok y := by
  cases refused <;> simp

/-- Mapping fails as one of the elements does. -/
theorem exists_of_mapM_eq_error {f : α → Except ε β} {e : ε} :
    ∀ {xs : List α}, xs.mapM f = .error e → ∃ x ∈ xs, f x = .error e
  | [], h => by
    rw [List.mapM_nil] at h
    cases h
  | x :: xs, h => by
    rw [List.mapM_cons] at h
    rcases bind_eq_error.mp h with hx | ⟨y, _, h⟩
    · exact ⟨x, List.mem_cons_self, hx⟩
    · rcases bind_eq_error.mp h with hrest | ⟨ys, _, h⟩
      · obtain ⟨z, hz, hfz⟩ := exists_of_mapM_eq_error hrest
        exact ⟨z, List.mem_cons_of_mem _ hz, hfz⟩
      · cases h

/-- Steps that are taken one after the other fail as one of them does, from wherever it
    starts. -/
theorem exists_of_foldlM_eq_error {f : β → α → Except ε β} {e : ε} :
    ∀ {xs : List α} {b : β}, xs.foldlM f b = .error e → ∃ x ∈ xs, ∃ b, f b x = .error e
  | [], b, h => by
    rw [List.foldlM_nil] at h
    cases h
  | x :: xs, b, h => by
    rw [List.foldlM_cons] at h
    rcases bind_eq_error.mp h with hx | ⟨b', _, hrest⟩
    · exact ⟨x, List.mem_cons_self, b, hx⟩
    · obtain ⟨z, hz, hfz⟩ := exists_of_foldlM_eq_error hrest
      exact ⟨z, List.mem_cons_of_mem _ hz, hfz⟩

/-- Whether a result is there, or the error in its place is one that `P` says. -/
def FailsOnly (P : ε → Prop) (x : Except ε α) : Prop := ∀ e, x = .error e → P e

namespace FailsOnly

variable {P Q : ε → Prop} {x : Except ε α}

theorem ok (a : α) : FailsOnly P (.ok a) := by
  intro e he
  cases he

theorem error {e : ε} (h : P e) : FailsOnly P (.error e : Except ε α) := by
  intro e' he
  cases he
  exact h

theorem mono (hPQ : ∀ e, P e → Q e) (h : FailsOnly P x) : FailsOnly Q x :=
  fun e he => hPQ e (h e he)

theorem bind {f : α → Except ε β} (hx : FailsOnly P x)
    (hf : ∀ a, x = .ok a → FailsOnly P (f a)) : FailsOnly P (x >>= f) := by
  intro e he
  rcases bind_eq_error.mp he with hfirst | ⟨a, ha, hrest⟩
  · exact hx e hfirst
  · exact hf a ha e hrest

theorem map {f : α → β} (hx : FailsOnly P x) : FailsOnly P (x.map f) :=
  fun e he => hx e (map_eq_error.mp he)

theorem mapM {f : α → Except ε β} {xs : List α} (h : ∀ a ∈ xs, FailsOnly P (f a)) :
    FailsOnly P (xs.mapM f) := by
  intro e he
  obtain ⟨a, ha, hfail⟩ := exists_of_mapM_eq_error he
  exact h a ha e hfail

theorem foldlM {f : β → α → Except ε β} {xs : List α} {start : β}
    (h : ∀ a ∈ xs, ∀ b, FailsOnly P (f b a)) : FailsOnly P (xs.foldlM f start) := by
  intro e he
  obtain ⟨a, ha, b, hfail⟩ := exists_of_foldlM_eq_error he
  exact h a ha b e hfail

end FailsOnly

theorem exists_of_mem_mapM {f : α → Except ε β} {xs : List α} {ys : List β}
    (h : xs.mapM f = .ok ys) {y : β} (hy : y ∈ ys) : ∃ x ∈ xs, f x = .ok y := by
  have hall := mapM_eq_ok.mp h
  obtain ⟨i, hi, rfl⟩ := List.mem_iff_getElem.mp hy
  have hlen := hall.length_eq
  exact ⟨_, List.get_mem xs ⟨i, by omega⟩, hall.get (by omega) hi⟩

theorem exists_mem_of_mapM {f : α → Except ε β} :
    ∀ {xs : List α} {ys : List β}, xs.mapM f = .ok ys → ∀ x ∈ xs, ∃ y ∈ ys, f x = .ok y
  | x :: xs, ys, h, z, hz => by
    rw [List.mapM_cons] at h
    obtain ⟨y, hy, h⟩ := bind_eq_ok.mp h
    obtain ⟨rest, hrest, h⟩ := bind_eq_ok.mp h
    obtain rfl := pure_eq_ok.mp h
    rcases List.mem_cons.mp hz with rfl | hz
    · exact ⟨y, List.mem_cons_self, hy⟩
    · obtain ⟨w, hw, hfz⟩ := exists_mem_of_mapM hrest z hz
      exact ⟨w, List.mem_cons_of_mem _ hw, hfz⟩

end Results

/-! ## §2. Lists that match -/

section Matches

variable {α β : Type} {R : α → β → Prop} {xs : List α} {ys : List β}

/-- What matches is in the two lists. -/
theorem forall₂_mem (h : List.Forall₂ R xs ys) :
    List.Forall₂ (fun a b => R a b ∧ a ∈ xs ∧ b ∈ ys) xs ys := by
  induction h with
  | nil => exact .nil
  | cons hab _ ih =>
    refine .cons ⟨hab, List.mem_cons_self, List.mem_cons_self⟩ (ih.imp ?_)
    rintro a b ⟨hab, ha, hb⟩
    exact ⟨hab, List.mem_cons_of_mem _ ha, List.mem_cons_of_mem _ hb⟩

/-- Each element of two lists that match has a match. -/
theorem exists_mem_of_forall₂ (h : List.Forall₂ R xs ys) : ∀ x ∈ xs, ∃ y ∈ ys, R x y := by
  induction h with
  | nil => nofun
  | cons hxy _ ih =>
    refine List.forall_mem_cons.mpr ⟨⟨_, List.mem_cons_self, hxy⟩, fun x hx => ?_⟩
    obtain ⟨y, hy, hR⟩ := ih x hx
    exact ⟨y, List.mem_cons_of_mem _ hy, hR⟩

end Matches

/-! ## §3. What comes first -/

/-- One more key is kept behind the others if it is new. -/
theorem eraseDups_append_singleton {κ : Type} [BEq κ] [LawfulBEq κ] (keys : List κ) (key : κ) :
    (keys ++ [key]).eraseDups =
      if keys.contains key then keys.eraseDups else keys.eraseDups ++ [key] := by
  rw [List.eraseDups_append, List.removeAll, List.filter_singleton]
  change _ ++ (bif !keys.contains key then [key] else []).eraseDups = _
  cases keys.contains key <;> simp [List.eraseDups_cons]

/-! ## §4. Tables -/

namespace Table

variable {κ α : Type} [BEq κ] [LawfulBEq κ]

theorem get?_eq_none {t : Table κ α} {k : κ} : t.get? k = none ↔ k ∉ t.keys := by
  simp only [get?, keys, Option.map_eq_none_iff, List.find?_eq_none, List.mem_map, beq_iff_eq,
    not_exists, not_and]

theorem has_eq_true {t : Table κ α} {k : κ} : t.has k = true ↔ k ∈ t.keys := by
  simp only [has, keys, List.any_eq_true, List.mem_map, beq_iff_eq]

theorem mem_keys_of_get? {t : Table κ α} {k : κ} {a : α} (h : t.get? k = some a) :
    k ∈ t.keys := by
  by_contra hnot
  rw [get?_eq_none.mpr hnot] at h
  cases h

omit [LawfulBEq κ] in
theorem get?_append (t u : Table κ α) (k : κ) :
    Table.get? (t ++ u) k = (t.get? k).or (u.get? k) := by
  simp only [get?, List.find?_append]
  cases t.find? (·.1 == k) <;> rfl

omit [BEq κ] [LawfulBEq κ] in
theorem keys_append (t u : Table κ α) : Table.keys (t ++ u) = t.keys ++ u.keys :=
  List.map_append

/-- What a key has once the values of a key are changed where they stand. -/
theorem get?_map_self (k : κ) (f : α → α) :
    ∀ t : Table κ α,
      Table.get? (t.map fun (key, a) => if key == k then (key, f a) else (key, a)) k =
        (t.get? k).map f
  | [] => rfl
  | (key, a) :: t => by
    have ih := get?_map_self k f t
    simp only [get?] at ih ⊢
    by_cases hk : key = k
    · simp [hk]
    · simpa [hk] using ih

theorem get?_map_of_ne {k k' : κ} (hne : k ≠ k') (f : α → α) :
    ∀ t : Table κ α,
      Table.get? (t.map fun (key, a) => if key == k then (key, f a) else (key, a)) k' =
        t.get? k'
  | [] => rfl
  | (key, a) :: t => by
    have ih := get?_map_of_ne hne f t
    simp only [get?] at ih ⊢
    by_cases hk : key = k
    · simpa [hk, hne] using ih
    · by_cases hk' : key = k'
      · simp [hk', hne.symm]
      · simpa [hk, hk'] using ih

/-- A key that is changed has what the change makes of its value, or of the default. -/
theorem get?_change_self (t : Table κ α) (k : κ) (default : α) (f : α → α) :
    (t.change k default f).get? k = some (f ((t.get? k).getD default)) := by
  rw [change]
  split
  next hhas =>
    rw [get?_map_self]
    cases hget : t.get? k with
    | none => exact absurd (has_eq_true.mp hhas) (get?_eq_none.mp hget)
    | some a => rfl
  next hhas =>
    have hnone : t.get? k = none := get?_eq_none.mpr fun h => hhas (has_eq_true.mpr h)
    rw [hnone, Option.getD_none]
    simp only [get?, Option.map_eq_none_iff] at hnone
    simp [get?, List.find?_append, hnone]

theorem get?_change_of_ne {k k' : κ} (hne : k ≠ k') (t : Table κ α) (default : α) (f : α → α) :
    (t.change k default f).get? k' = t.get? k' := by
  rw [change]
  split
  next => exact get?_map_of_ne hne f t
  next => simp [get?, List.find?_append, hne]

omit [LawfulBEq κ] in
theorem keys_change (t : Table κ α) (k : κ) (default : α) (f : α → α) :
    (t.change k default f).keys = if t.has k then t.keys else t.keys ++ [k] := by
  rw [change]
  split
  · rw [keys, keys, List.map_map]
    refine List.map_congr_left fun e _ => ?_
    by_cases he : e.1 == k <;> simp [he]
  · simp [keys]

theorem keys_put_of_not_mem {t : Table κ α} {k : κ} {a : α} (h : k ∉ t.keys) :
    (t.put k a).keys = t.keys ++ [k] := by
  rw [put, keys_change, if_neg (mt has_eq_true.mp h)]

/-- A value that is put where its key is keeps the keys. -/
theorem keys_put_of_mem {t : Table κ α} {k : κ} {a : α} (h : k ∈ t.keys) :
    (t.put k a).keys = t.keys := by
  rw [put, keys_change, if_pos (has_eq_true.mpr h)]

/-- A key has what was last put under it. -/
theorem get?_put_self (t : Table κ α) (k : κ) (a : α) : (t.put k a).get? k = some a :=
  get?_change_self t k a fun _ => a

theorem get?_put_of_ne {k k' : κ} (hne : k ≠ k') (t : Table κ α) (a : α) :
    (t.put k a).get? k' = t.get? k' :=
  get?_change_of_ne hne t a fun _ => a

theorem mem_of_get? {t : Table κ α} {k : κ} {a : α} (h : t.get? k = some a) : (k, a) ∈ t := by
  obtain ⟨e, he, rfl⟩ := Option.map_eq_some_iff.mp h
  have hkey : e.1 = k := by simpa using List.find?_some he
  rw [← hkey]
  exact List.mem_of_find?_eq_some he

/-- A table whose keys are different answers for its keys with what it holds. -/
theorem get?_of_mem {k : κ} {a : α} :
    ∀ {t : Table κ α}, t.keys.Nodup → (k, a) ∈ t → t.get? k = some a
  | (key, b) :: t, hnodup, hmem => by
    simp only [keys, List.map_cons, List.nodup_cons] at hnodup
    rcases List.mem_cons.mp hmem with heq | hmem
    · cases heq
      simp [get?]
    · have hne : key ≠ k := fun heq => hnodup.1 (heq ▸ List.mem_map_of_mem hmem)
      simpa [get?, hne] using get?_of_mem hnodup.2 hmem

/-- A table whose keys are different is what it answers for its keys. -/
theorem eq_of_get? :
    ∀ {t u : Table κ α}, t.keys.Nodup → t.keys = u.keys → (∀ k, t.get? k = u.get? k) → t = u
  | [], [], _, _, _ => rfl
  | [], _ :: _, _, hkeys, _ => by cases hkeys
  | _ :: _, [], _, hkeys, _ => by cases hkeys
  | (k, a) :: t, (k', a') :: u, hnodup, hkeys, hget => by
    simp only [keys, List.map_cons, List.cons.injEq, List.nodup_cons] at hnodup hkeys
    obtain ⟨rfl, htail⟩ := hkeys
    have hvalue : a = a' := by simpa [get?] using hget k
    have hrest : ∀ other, Table.get? t other = Table.get? u other := by
      intro other
      by_cases hother : k = other
      · -- the first key is in the rest of neither table
        subst hother
        have ht : Table.get? t k = none := get?_eq_none.mpr hnodup.1
        have hu : Table.get? u k = none := get?_eq_none.mpr (by rw [keys, ← htail]; exact hnodup.1)
        rw [ht, hu]
      · simpa [get?, hother] using hget other
    rw [hvalue, eq_of_get? hnodup.2 htail hrest]

/-! ## §5. Several values at once -/

theorem put_append_of_not_mem {t u : Table κ α} {k : κ} {a : α} (ht : k ∉ t.keys)
    (hu : k ∈ u.keys) : Table.put (t ++ u) k a = t ++ u.put k a := by
  have hkeys : k ∈ Table.keys (t ++ u) := by
    rw [keys_append]
    exact List.mem_append_right _ hu
  rw [put, change, if_pos (has_eq_true.mpr hkeys), put, change, if_pos (has_eq_true.mpr hu),
    List.map_append]
  congr 1
  refine (List.map_congr_left fun e he => ?_).trans (List.map_id t)
  have hne : e.1 ≠ k := fun heq => ht (heq ▸ List.mem_map_of_mem he)
  simp [hne]

/-- Gives several keys values, one after the other. -/
def putAll (t values : Table κ α) : Table κ α := values.foldl (fun t e => t.put e.1 e.2) t

theorem get?_putAll_of_not_mem {k : κ} :
    ∀ {values t : Table κ α}, k ∉ values.keys → (t.putAll values).get? k = t.get? k
  | [], t, _ => rfl
  | e :: values, t, h => by
    have hne : e.1 ≠ k := fun heq => h (heq ▸ List.mem_cons_self)
    have hrest : k ∉ Table.keys values := fun hmem => h (List.mem_cons_of_mem _ hmem)
    show (Table.putAll (t.put e.1 e.2) values).get? k = _
    rw [get?_putAll_of_not_mem hrest, get?_put_of_ne hne]

theorem keys_putAll :
    ∀ {values t : Table κ α}, (∀ k ∈ values.keys, k ∈ t.keys) → (t.putAll values).keys = t.keys
  | [], t, _ => rfl
  | e :: values, t, h => by
    have hkeys : (t.put e.1 e.2).keys = t.keys := keys_put_of_mem (h e.1 List.mem_cons_self)
    have hrest : ∀ k ∈ Table.keys values, k ∈ (t.put e.1 e.2).keys := by
      intro k hk
      rw [hkeys]
      exact h k (List.mem_cons_of_mem _ hk)
    show (Table.putAll (t.put e.1 e.2) values).keys = _
    rw [keys_putAll hrest, hkeys]

theorem putAll_append_of_not_mem :
    ∀ {values t u : Table κ α}, (∀ k ∈ values.keys, k ∉ t.keys) →
      (∀ k ∈ values.keys, k ∈ u.keys) → Table.putAll (t ++ u) values = t ++ u.putAll values
  | [], t, u, _, _ => rfl
  | e :: values, t, u, ht, hu => by
    have he : e.1 ∈ u.keys := hu e.1 List.mem_cons_self
    have hkeys : (u.put e.1 e.2).keys = u.keys := keys_put_of_mem he
    have hu' : ∀ k ∈ Table.keys values, k ∈ (u.put e.1 e.2).keys := by
      intro k hk
      rw [hkeys]
      exact hu k (List.mem_cons_of_mem _ hk)
    show Table.putAll (Table.put (t ++ u) e.1 e.2) values = _
    rw [put_append_of_not_mem (ht e.1 List.mem_cons_self) he,
      putAll_append_of_not_mem (fun k hk => ht k (List.mem_cons_of_mem _ hk)) hu']
    rfl

/-- What keys have once several values are put: the new value, or what they had. -/
theorem get?_putAll {k : κ} :
    ∀ {values t : Table κ α}, values.keys.Nodup →
      (t.putAll values).get? k = (values.get? k).or (t.get? k)
  | [], t, _ => rfl
  | e :: values, t, h => by
    simp only [keys, List.map_cons, List.nodup_cons] at h
    show (Table.putAll (t.put e.1 e.2) values).get? k = _
    rw [get?_putAll h.2]
    by_cases hk : e.1 = k
    · -- the key comes no second time
      subst hk
      rw [get?_eq_none.mpr h.1, get?_put_self]
      simp [get?]
    · rw [get?_put_of_ne hk]
      simp [get?, hk]

end Table

end ShaderFlow
