import Mathlib.Data.List.Basic

/-!
# Loops of fallible steps

What a successful bind or `mapM` says about its parts.
-/

namespace MaddyWeb.Library.Fallible

variable {α β γ ε : Type}

theorem bind_eq_ok {x : Except ε α} {f : α → Except ε β} {b : β} (h : x >>= f = .ok b) :
    ∃ a, x = .ok a ∧ f a = .ok b := by
  cases x with
  | error e => cases h
  | ok a => exact ⟨a, rfl, h⟩

theorem bind_eq_error {x : Except ε α} {f : α → Except ε β} {e : ε} (h : x >>= f = .error e) :
    x = .error e ∨ ∃ a, x = .ok a ∧ f a = .error e := by
  cases x with
  | error e' =>
      cases h
      exact Or.inl rfl
  | ok a => exact Or.inr ⟨a, rfl, h⟩

theorem bind_eq_error_iff {x : Except ε α} {f : α → Except ε β} {e : ε} :
    x >>= f = .error e ↔ x = .error e ∨ ∃ a, x = .ok a ∧ f a = .error e := by
  refine ⟨bind_eq_error, ?_⟩
  rintro (h | ⟨a, h, hf⟩)
  · rw [h]
    rfl
  · rw [h]
    exact hf

theorem ok_bind (a : α) (f : α → Except ε β) : (.ok a : Except ε α) >>= f = f a := rfl

/-- `if not condition: raise e` -/
def ensure (condition : Prop) [Decidable condition] (e : ε) : Except ε Unit :=
  if condition then .ok () else .error e

theorem ensure_bind_eq_ok {condition : Prop} [Decidable condition] {e : ε} {f : Unit → Except ε β}
    {b : β} (h : ensure condition e >>= f = .ok b) : condition ∧ f () = .ok b := by
  unfold ensure at h
  split at h
  · next hc => exact ⟨hc, h⟩
  · cases h

theorem ensure_eq_ok_iff {condition : Prop} [Decidable condition] {e : ε} :
    ensure condition e = .ok () ↔ condition := by
  unfold ensure
  split
  · next hc => exact ⟨fun _ => hc, fun _ => rfl⟩
  · next hc => exact ⟨nofun, fun h => absurd h hc⟩

theorem ensure_bind_eq_ok_iff {condition : Prop} [Decidable condition] {e : ε}
    {f : Unit → Except ε β}
    {b : β} : ensure condition e >>= f = .ok b ↔ condition ∧ f () = .ok b := by
  refine ⟨ensure_bind_eq_ok, fun h => ?_⟩
  rw [ensure, if_pos h.1]
  exact h.2

theorem ensure_bind_of {condition : Prop} [Decidable condition] {e : ε} {f : Unit → Except ε β}
    (hc : condition) : ensure condition e >>= f = f () := by
  unfold ensure
  rw [if_pos hc]
  rfl

theorem mapM_error {f : α → Except ε β} {x : α} {e : ε} (hx : f x = .error e) (xs : List α)
    (h : x ∈ xs) : ∃ e', xs.mapM f = .error e' := by
  induction xs with
  | nil => cases h
  | cons y ys ih =>
      rw [List.mapM_cons]
      cases hy : f y with
      | error e' => exact ⟨e', rfl⟩
      | ok b =>
          have hmem : x ∈ ys := by
            rcases List.mem_cons.mp h with heq | hmem
            · rw [← heq, hx] at hy
              cases hy
            · exact hmem
          obtain ⟨e', he'⟩ := ih hmem
          refine ⟨e', ?_⟩
          rw [he']
          rfl

/-- A `mapM` fails where its first element does. -/
theorem mapM_eq_error_iff {f : α → Except ε β} {xs : List α} {e : ε} :
    xs.mapM f = .error e ↔ ∃ before x after, xs = before ++ x :: after ∧
      (∀ earlier ∈ before, ∃ y, f earlier = .ok y) ∧ f x = .error e := by
  induction xs with
  | nil =>
      refine ⟨nofun, ?_⟩
      rintro ⟨before, x, after, hsplit, -⟩
      cases before <;> cases hsplit
  | cons first rest ih =>
      rw [List.mapM_cons, bind_eq_error_iff]
      constructor
      · rintro (hfirst | ⟨y, hy, h⟩)
        · exact ⟨[], first, rest, rfl, nofun, hfirst⟩
        · rcases bind_eq_error h with hrest | ⟨ys, -, h⟩
          · obtain ⟨before, x, after, rfl, hbefore, hx⟩ := ih.mp hrest
            exact ⟨first :: before, x, after, rfl,
              List.forall_mem_cons.mpr ⟨⟨y, hy⟩, hbefore⟩, hx⟩
          · cases h
      · rintro ⟨before, x, after, hsplit, hbefore, hx⟩
        cases before with
        | nil =>
            cases hsplit
            exact Or.inl hx
        | cons earlier before =>
            cases hsplit
            obtain ⟨⟨y, hy⟩, hbefore⟩ := List.forall_mem_cons.mp hbefore
            refine Or.inr ⟨y, hy, ?_⟩
            rw [ih.mpr ⟨before, x, after, rfl, hbefore, hx⟩]
            rfl

theorem mapM_ok_of_mem {f : α → Except ε β} {xs : List α} {ys : List β} (h : xs.mapM f = .ok ys)
    {x : α} (hx : x ∈ xs) : ∃ y, f x = .ok y := by
  cases hfx : f x with
  | ok y => exact ⟨y, rfl⟩
  | error e =>
      obtain ⟨e', he'⟩ := mapM_error hfx xs hx
      rw [he'] at h
      cases h

theorem mem_of_mapM_ok {f : α → Except ε β} {xs : List α} {ys : List β} (h : xs.mapM f = .ok ys)
    {y : β} (hy : y ∈ ys) : ∃ x ∈ xs, f x = .ok y := by
  induction xs generalizing ys with
  | nil =>
      cases h
      cases hy
  | cons x xs ih =>
      rw [List.mapM_cons] at h
      obtain ⟨b, hb, h⟩ := bind_eq_ok h
      obtain ⟨bs, hbs, h⟩ := bind_eq_ok h
      cases h
      rcases List.mem_cons.mp hy with rfl | hy
      · exact ⟨x, List.mem_cons_self, hb⟩
      · obtain ⟨x', hx', hfx⟩ := ih hbs hy
        exact ⟨x', List.mem_cons_of_mem _ hx', hfx⟩

theorem mem_mapM_of_mem {f : α → Except ε β} {xs : List α} {ys : List β} (h : xs.mapM f = .ok ys)
    {x : α} (hx : x ∈ xs) {y : β} (hy : f x = .ok y) : y ∈ ys := by
  induction xs generalizing ys with
  | nil => cases hx
  | cons first rest ih =>
      rw [List.mapM_cons] at h
      obtain ⟨b, hb, h⟩ := bind_eq_ok h
      obtain ⟨bs, hbs, h⟩ := bind_eq_ok h
      cases h
      rcases List.mem_cons.mp hx with rfl | hx
      · rw [hb] at hy
        cases hy
        exact List.mem_cons_self
      · exact List.mem_cons_of_mem b (ih hbs hx)

theorem exists_mapM_eq_ok_iff {f : α → Except ε β} {xs : List α} :
    (∃ ys, xs.mapM f = .ok ys) ↔ ∀ x ∈ xs, ∃ y, f x = .ok y := by
  constructor
  · rintro ⟨ys, h⟩ x hx
    exact mapM_ok_of_mem h hx
  · intro h
    cases hresult : xs.mapM f with
    | ok ys => exact ⟨ys, rfl⟩
    | error e =>
        obtain ⟨before, x, after, rfl, -, hx⟩ := mapM_eq_error_iff.mp hresult
        obtain ⟨y, hy⟩ := h x (List.mem_append_right before List.mem_cons_self)
        rw [hy] at hx
        cases hx

theorem forM_eq_ok_iff {f : α → Except ε PUnit} {xs : List α} :
    xs.forM f = .ok ⟨⟩ ↔ ∀ x ∈ xs, f x = .ok ⟨⟩ := by
  induction xs with
  | nil => exact ⟨fun _ => nofun, fun _ => rfl⟩
  | cons x xs ih =>
      have hcons : (x :: xs).forM f = f x >>= fun _ => xs.forM f := rfl
      rw [hcons, List.forall_mem_cons, ← ih]
      cases f x with
      | error e => exact ⟨nofun, nofun⟩
      | ok u => exact ⟨fun h => ⟨rfl, h⟩, fun h => h.2⟩

theorem length_of_mapM_some {f : α → Option β} {xs : List α} {ys : List β}
    (h : xs.mapM f = some ys) : ys.length = xs.length := by
  induction xs generalizing ys with
  | nil =>
      cases h
      rfl
  | cons x xs ih =>
      rw [List.mapM_cons] at h
      obtain ⟨y, -, h⟩ := Option.bind_eq_some_iff.mp h
      obtain ⟨ys', hys', h⟩ := Option.bind_eq_some_iff.mp h
      cases h
      simp [ih hys']

theorem length_of_mapM_ok {f : α → Except ε β} {xs : List α} {ys : List β}
    (h : xs.mapM f = .ok ys) : ys.length = xs.length := by
  induction xs generalizing ys with
  | nil =>
      cases h
      rfl
  | cons x xs ih =>
      rw [List.mapM_cons] at h
      cases hx : f x with
      | error e =>
          rw [hx] at h
          cases h
      | ok y =>
          cases hxs : xs.mapM f with
          | error e =>
              rw [hx, hxs] at h
              cases h
          | ok ys' =>
              rw [hx, hxs] at h
              cases h
              simp [ih hxs]

/-- A loop gives the expected images exactly when each of its steps does. -/
theorem mapM_map_eq_iff (f : α → Except ε β) (g : β → γ) (k : α → γ) (xs : List α) :
    (∃ ys, xs.mapM f = .ok ys ∧ ys.map g = xs.map k) ↔ ∀ x ∈ xs, ∃ y, f x = .ok y ∧ g y = k x := by
  induction xs with
  | nil => simp [pure, Except.pure]
  | cons x xs ih =>
      rw [List.forall_mem_cons, ← ih, List.mapM_cons]
      constructor
      · rintro ⟨ys, hys, hmap⟩
        cases hx : f x with
        | error e =>
            rw [hx] at hys
            cases hys
        | ok y =>
            cases hxs : xs.mapM f with
            | error e =>
                rw [hx, hxs] at hys
                cases hys
            | ok ys' =>
                rw [hx, hxs] at hys
                cases hys
                obtain ⟨hy, hmap⟩ := List.cons.inj hmap
                exact ⟨⟨y, rfl, hy⟩, ys', rfl, hmap⟩
      · rintro ⟨⟨y, hx, hy⟩, ys, hxs, hmap⟩
        refine ⟨y :: ys, ?_, by rw [List.map_cons, List.map_cons, hy, hmap]⟩
        rw [hx, hxs]
        rfl

/-! ## Checks -/

/-- The computation gives its result if the condition holds, and else reports that it does not. -/
structure Decides (reported : ε → Prop) (x : Except ε α) (fits : Prop) (result : α) : Prop where
  ok : fits → x = .ok result
  error : ¬fits → ∃ e, x = .error e ∧ reported e

namespace Decides

variable {reported : ε → Prop} {x : Except ε α} {fits fits' : Prop} {result : α}

theorem of_ok (a : α) : Decides reported (.ok a) True a where
  ok _ := rfl
  error h := absurd trivial h

theorem ensure {condition : Prop} [Decidable condition] {e : ε} (he : reported e) :
    Decides reported (Fallible.ensure condition e) condition () where
  ok h := if_pos h
  error h := ⟨e, if_neg h, he⟩

theorem congr (hx : Decides reported x fits result) (h : fits ↔ fits') :
    Decides reported x fits' result where
  ok hfits := hx.ok (h.mpr hfits)
  error hfits := hx.error fun hfits' => hfits (h.mp hfits')

theorem bind {f : α → Except ε β} {after : Prop} {b : β} (hx : Decides reported x fits result)
    (hf : fits → Decides reported (f result) after b) :
    Decides reported (x >>= f) (fits ∧ after) b := by
  by_cases hfits : fits
  · rw [hx.ok hfits, ok_bind]
    exact (hf hfits).congr (and_iff_right hfits).symm
  · obtain ⟨e, he, hreported⟩ := hx.error hfits
    rw [he]
    exact ⟨fun h => absurd h.1 hfits, fun _ => ⟨e, rfl, hreported⟩⟩

theorem eq_ok (hx : Decides reported x fits result) {a : α} (h : x = .ok a) :
    fits ∧ a = result := by
  by_cases hfits : fits
  · rw [hx.ok hfits] at h
    exact ⟨hfits, (Except.ok.inj h).symm⟩
  · obtain ⟨e, he, -⟩ := hx.error hfits
    rw [he] at h
    cases h

theorem eq_error (hx : Decides reported x fits result) {e : ε} (h : x = .error e) :
    ¬fits ∧ reported e := by
  by_cases hfits : fits
  · rw [hx.ok hfits] at h
    cases h
  · obtain ⟨e', he, hreported⟩ := hx.error hfits
    rw [he] at h
    cases h
    exact ⟨hfits, hreported⟩

end Decides

end MaddyWeb.Library.Fallible
