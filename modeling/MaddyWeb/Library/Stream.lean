import MaddyWeb.Library.Exec
import Mathlib.Data.List.Infix

/-!
# Streams that arrive in pieces

A source holds what has not been read yet.  A read returns a first part of it whose length
the transport chooses, and nothing only at the end.  `fillUntil` is the loop that every
reader is made of; what it collects is a first part of the stream.
-/

namespace MaddyWeb.Library

variable {ε α : Type}

/-- The bytes up to the end of the stream, and what the transport does at each read. -/
structure Source (ε α : Type) where
  pending : List α
  cuts : Nat → Except ε Nat
  reads : Nat

namespace Source

/-- `recv(n)` and `read(n)`: one to `n` items, or none at the end. -/
def recv (n : Nat) : Exec (Source ε α) ε (List α) := fun s =>
  match s.cuts s.reads with
  | .error e => (.error e, { s with reads := s.reads + 1 })
  | .ok cut =>
      let k := min n (cut + 1)
      (.ok (s.pending.take k), { s with pending := s.pending.drop k, reads := s.reads + 1 })

/-- `while not stop and len < limit: chunk = recv(min(step, limit - len)); if not chunk: break`;
the flag says that the end of the stream has ended the loop. -/
def fillUntil (stop : List α → Bool) (step limit : Nat) :
    Nat → List α → Exec (Source ε α) ε (List α × Bool)
  | 0, collected => return (collected, false)
  | fuel + 1, collected =>
      if stop collected || limit ≤ collected.length then return (collected, false)
      else do
        let chunk ← recv (min step (limit - collected.length))
        if chunk.isEmpty then return (collected, true)
        else fillUntil stop step limit fuel (collected ++ chunk)

/-- The loop with no other condition than the limit. -/
def fill (step limit : Nat) (collected : List α) : Exec (Source ε α) ε (List α × Bool) :=
  fillUntil (fun _ => false) step limit limit collected

/-- The transport never fails. -/
def Steady (s : Source ε α) : Prop := ∀ n, ∃ cut, s.cuts n = .ok cut

/-- What a read leaves of a source. -/
structure Follows (s s' : Source ε α) (collected : List α) : Prop where
  pending : s.pending = collected ++ s'.pending
  cuts : s'.cuts = s.cuts

theorem recv_ok {n : Nat} {s s' : Source ε α} {chunk : List α} (h : recv n s = (.ok chunk, s')) :
    Follows s s' chunk ∧ chunk.length ≤ n ∧ (0 < n → chunk = [] → s'.pending = []) := by
  unfold recv at h
  split at h
  · cases h
  · next cut _ =>
      cases h
      refine ⟨⟨(List.take_append_drop _ _).symm, rfl⟩, ?_, ?_⟩
      · rw [List.length_take]
        omega
      · intro hn hempty
        have hlength := congrArg List.length hempty
        rw [List.length_take, List.length_nil] at hlength
        show s.pending.drop _ = []
        rw [List.drop_eq_nil_iff]
        omega

theorem recv_error {n : Nat} {s s' : Source ε α} {e : ε} (h : recv n s = (.error e, s')) :
    Follows s s' [] ∧ ∃ k, s.cuts k = .error e := by
  unfold recv at h
  split at h
  · next e' hcut =>
      cases h
      exact ⟨⟨rfl, rfl⟩, s.reads, hcut⟩
  · cases h

theorem Follows.trans {s s₁ s₂ : Source ε α} {xs ys : List α} (h : Follows s s₁ xs)
    (h' : Follows s₁ s₂ ys) : Follows s s₂ (xs ++ ys) where
  pending := by rw [h.pending, h'.pending, List.append_assoc]
  cuts := by rw [h'.cuts, h.cuts]

/-- What the loop has collected, and why it has ended. -/
structure Filled (stop : List α → Bool) (limit : Nat) (s s' : Source ε α)
    (collected result : List α) (atEnd : Bool) : Prop where
  collects : ∃ more, result = collected ++ more ∧ Follows s s' more
  length : result.length ≤ max limit collected.length
  ended : atEnd = true → s'.pending = [] ∧ result.length < limit ∧ stop result = false
  stopped : atEnd = false → stop result = true ∨ limit ≤ result.length

theorem Filled.stop {stop : List α → Bool} {limit : Nat} {collected : List α} (s : Source ε α)
    (h : stop collected = true ∨ limit ≤ collected.length) :
    Filled stop limit s s collected collected false where
  collects := ⟨[], (List.append_nil _).symm, rfl, rfl⟩
  length := Nat.le_max_right _ _
  ended := nofun
  stopped := fun _ => h

/-- One turn of the loop. -/
theorem fillUntil_succ {stop : List α → Bool} {step limit fuel : Nat} {collected : List α}
    (hmore : (stop collected || decide (limit ≤ collected.length)) = false) :
    fillUntil stop step limit (fuel + 1) collected =
      (recv (min step (limit - collected.length)) >>= fun chunk =>
        if chunk.isEmpty then return (collected, true)
        else fillUntil stop step limit fuel (collected ++ chunk) :
          Exec (Source ε α) ε (List α × Bool)) := by
  rw [fillUntil, hmore]
  rfl

theorem fillUntil_ok {stop : List α → Bool} {step limit : Nat} (hstep : 0 < step) {fuel : Nat}
    {collected : List α} {s s' : Source ε α} {result : List α × Bool}
    (hfuel : limit ≤ fuel + collected.length)
    (h : fillUntil stop step limit fuel collected s = (.ok result, s')) :
    Filled stop limit s s' collected result.1 result.2 := by
  induction fuel generalizing collected s with
  | zero =>
      have hlimit : limit ≤ collected.length := by omega
      cases h
      exact .stop _ (Or.inr hlimit)
  | succ fuel ih =>
      cases hmore : stop collected || decide (limit ≤ collected.length) with
      | true =>
          rw [fillUntil, hmore] at h
          cases h
          exact .stop _ (by simpa using hmore)
      | false =>
          rw [fillUntil_succ hmore] at h
          simp only [Bool.or_eq_false_iff, decide_eq_false_iff_not, Nat.not_le] at hmore
          obtain ⟨chunk, s₁, hrecv, hrest⟩ := Exec.bind_eq_ok h
          obtain ⟨hfollows, hlength, hend⟩ := recv_ok hrecv
          cases hempty : chunk.isEmpty with
          | true =>
              rw [hempty] at hrest
              cases hrest
              have hnil : chunk = [] := List.isEmpty_iff.mp hempty
              subst hnil
              refine ⟨⟨[], (List.append_nil _).symm, hfollows⟩, Nat.le_max_right _ _, ?_, nofun⟩
              exact fun _ => ⟨hend (by omega) rfl, hmore.2, hmore.1⟩
          | false =>
              rw [hempty] at hrest
              have hpositive : 0 < chunk.length :=
                List.length_pos_iff.mpr (List.isEmpty_eq_false_iff.mp hempty)
              have hnext := ih (by rw [List.length_append]; omega) hrest
              obtain ⟨more, hresult, hmore'⟩ := hnext.collects
              refine ⟨⟨chunk ++ more, ?_, hfollows.trans hmore'⟩, ?_, hnext.ended, hnext.stopped⟩
              · rw [hresult, List.append_assoc]
              · have hbound := hnext.length
                rw [List.length_append] at hbound
                omega

/-- A loop that fails has met a failure of the transport. -/
theorem fillUntil_error {stop : List α → Bool} {step limit fuel : Nat} {collected : List α}
    {s s' : Source ε α} {e : ε} (h : fillUntil stop step limit fuel collected s = (.error e, s')) :
    ∃ k, s.cuts k = .error e := by
  induction fuel generalizing collected s with
  | zero => cases h
  | succ fuel ih =>
      cases hmore : stop collected || decide (limit ≤ collected.length) with
      | true =>
          rw [fillUntil, hmore] at h
          cases h
      | false =>
          rw [fillUntil_succ hmore] at h
          change Exec.bind _ _ s = _ at h
          unfold Exec.bind at h
          rcases hrecv : recv (min step (limit - collected.length)) s with ⟨e' | chunk, s₁⟩
          · rw [hrecv] at h
            cases h
            exact (recv_error hrecv).2
          · rw [hrecv] at h
            dsimp only at h
            cases hempty : chunk.isEmpty with
            | true =>
                rw [hempty] at h
                cases h
            | false =>
                rw [hempty] at h
                rw [← (recv_ok hrecv).1.cuts]
                exact ih h

/-- A loop over a steady transport ends. -/
theorem Steady.fillUntil {stop : List α → Bool} {step limit fuel : Nat} {collected : List α}
    {s : Source ε α} (hsteady : Steady s) :
    ∃ result s', Source.fillUntil stop step limit fuel collected s = (.ok result, s') := by
  rcases hrun : Source.fillUntil stop step limit fuel collected s with ⟨e | result, s'⟩
  · obtain ⟨k, hk⟩ := fillUntil_error hrun
    obtain ⟨cut, hcut⟩ := hsteady k
    rw [hcut] at hk
    cases hk
  · exact ⟨result, s', rfl⟩

theorem Follows.steady {s s' : Source ε α} {xs : List α} (h : Follows s s' xs) (hs : Steady s) :
    Steady s' := by
  intro n
  rw [h.cuts]
  exact hs n

/-- Filling up to a limit takes a first part of the stream. -/
theorem fill_ok {step limit : Nat} (hstep : 0 < step) {collected result : List α} {atEnd : Bool}
    {s s' : Source ε α} (hcollected : collected.length ≤ limit)
    (h : fill step limit collected s = (.ok (result, atEnd), s')) :
    result = (collected ++ s.pending).take limit ∧
      Follows s s' (s.pending.take (limit - collected.length)) ∧
      (atEnd = true ↔ (collected ++ s.pending).length < limit) := by
  have hfilled : Filled (fun _ => false) limit s s' collected result atEnd :=
    fillUntil_ok hstep (Nat.le_add_right _ _) h
  obtain ⟨more, hresult, hfollows⟩ := hfilled.collects
  have hlength := hfilled.length
  have hsplit : collected ++ s.pending = result ++ s'.pending := by
    rw [hfollows.pending, hresult, List.append_assoc]
  cases atEnd with
  | true =>
      obtain ⟨hnil, hlt, -⟩ := hfilled.ended rfl
      rw [hnil, List.append_nil] at hsplit
      have hpending : s.pending = more := by rw [hfollows.pending, hnil, List.append_nil]
      have htake : s.pending.take (limit - collected.length) = more := by
        rw [hpending]
        apply List.take_of_length_le
        rw [hresult, List.length_append] at hlt
        omega
      refine ⟨?_, by rw [htake]; exact hfollows, ?_⟩
      · rw [hsplit, List.take_of_length_le (Nat.le_of_lt hlt)]
      · rw [hsplit]
        exact ⟨fun _ => hlt, fun _ => rfl⟩
  | false =>
      have hlimit : limit ≤ result.length := by simpa using hfilled.stopped rfl
      have heq : result.length = limit := by omega
      have htake : s.pending.take (limit - collected.length) = more := by
        rw [hfollows.pending]
        apply List.take_left'
        rw [hresult, List.length_append] at heq
        omega
      refine ⟨?_, by rw [htake]; exact hfollows, ?_⟩
      · rw [hsplit, List.take_left' heq]
      · rw [hsplit, List.length_append]
        constructor
        · nofun
        · intro hlt
          omega

end Source

/-! ## Copying a declared length -/

section Copy

variable {σ : Type} {read : Nat → Exec σ ε (List α)} {write : List α → Exec σ ε Unit} {step : Nat}
  {e : ε}

/-- `while remaining: chunk = read(min(step, remaining)); write(chunk)`, where an empty chunk is an
error. -/
def copyLoop (read : Nat → Exec σ ε (List α)) (write : List α → Exec σ ε Unit) (step : Nat)
    (e : ε) : Nat → Nat → Exec σ ε Unit
  | 0, _ => return ()
  | fuel + 1, remaining =>
      if remaining = 0 then return ()
      else do
        let chunk ← read (min step remaining)
        if chunk.isEmpty then Exec.raise e
        else do
          write chunk
          copyLoop read write step e fuel (remaining - chunk.length)

/-- A loop that returns has moved exactly the bytes that remained. -/
theorem copyLoop_ok {Moved : σ → List α → σ → Prop} (hrefl : ∀ s, Moved s [] s)
    (hstep : ∀ {n s chunk s₁ s₂}, read n s = (.ok chunk, s₁) → write chunk s₁ = (.ok (), s₂) →
      chunk.length ≤ n ∧ ∀ data s', Moved s₂ data s' → Moved s (chunk ++ data) s')
    {fuel remaining : Nat} (hfuel : remaining ≤ fuel) {s s' : σ}
    (h : copyLoop read write step e fuel remaining s = (.ok (), s')) :
    ∃ data, data.length = remaining ∧ Moved s data s' := by
  induction fuel generalizing remaining s with
  | zero =>
      cases h
      exact ⟨[], (Nat.le_zero.mp hfuel).symm, hrefl _⟩
  | succ fuel ih =>
      rw [copyLoop] at h
      split at h
      · next hzero =>
          cases h
          exact ⟨[], hzero.symm, hrefl _⟩
      next hremaining =>
      obtain ⟨chunk, s₁, hread, h⟩ := Exec.bind_eq_ok h
      split at h
      · cases h
      next hchunk =>
      obtain ⟨_, s₂, hwrite, h⟩ := Exec.bind_eq_ok h
      obtain ⟨hlength, hmoved⟩ := hstep hread hwrite
      have hpositive := List.length_pos_iff.mpr fun hnil => hchunk (List.isEmpty_iff.mpr hnil)
      obtain ⟨data, hdata, hrest⟩ := ih (by omega) h
      refine ⟨chunk ++ data, ?_, hmoved data s' hrest⟩
      rw [List.length_append]
      omega

/-- A loop returns if every turn finds something to move. -/
theorem copyLoop_returns {Ready : Nat → σ → Prop}
    (hstep : ∀ {remaining s}, Ready remaining s → 0 < remaining → ∃ chunk s₁ s₂,
      read (min step remaining) s = (.ok chunk, s₁) ∧ chunk ≠ [] ∧ write chunk s₁ = (.ok (), s₂) ∧
        Ready (remaining - chunk.length) s₂)
    {fuel remaining : Nat} (hfuel : remaining ≤ fuel) {s : σ} (h : Ready remaining s) :
    ∃ s', copyLoop read write step e fuel remaining s = (.ok (), s') ∧ Ready 0 s' := by
  induction fuel generalizing remaining s with
  | zero =>
      rw [Nat.le_zero.mp hfuel] at h
      exact ⟨s, rfl, h⟩
  | succ fuel ih =>
      rw [copyLoop]
      by_cases hremaining : remaining = 0
      · rw [if_pos hremaining]
        rw [hremaining] at h
        exact ⟨s, rfl, h⟩
      rw [if_neg hremaining]
      obtain ⟨chunk, s₁, s₂, hread, hnonempty, hwrite, hready⟩ := hstep h (by omega)
      rw [Exec.bind_of_ok hread, if_neg fun hempty => hnonempty (List.isEmpty_iff.mp hempty),
        Exec.bind_of_ok hwrite]
      have hpositive := List.length_pos_iff.mpr hnonempty
      exact ih (by omega) hready

end Copy

end MaddyWeb.Library
