import Mathlib.Data.List.Basic
import Mathlib.Data.List.Induction
import MaddyWeb.Library.Fallible

/-!
# Logs of events, and what the events before one say of it
-/

namespace MaddyWeb.Library.History

variable {ε : Type} {log before after : List ε} {event last : ε}

/-- An event of a longer log is its last one or an event of the log. -/
theorem split_snoc (h : log ++ [last] = before ++ event :: after) :
    (before = log ∧ event = last ∧ after = []) ∨
      ∃ rest, after = rest ++ [last] ∧ log = before ++ event :: rest := by
  rcases List.eq_nil_or_concat after with rfl | ⟨rest, x, rfl⟩
  · obtain ⟨hlog, hlast⟩ := List.append_inj' h rfl
    exact Or.inl ⟨hlog.symm, (List.cons.inj hlast).1.symm, rfl⟩
  · rw [List.concat_eq_append, ← List.cons_append, ← List.append_assoc] at h
    obtain ⟨hlog, hlast⟩ := List.append_inj' h rfl
    refine Or.inr ⟨rest, ?_, hlog⟩
    rw [List.concat_eq_append, (List.cons.inj hlast).1]

/-- Every event is allowed by those before it. -/
def Guarded (guard : List ε → ε → Prop) (log : List ε) : Prop :=
  ∀ before event after, log = before ++ event :: after → guard before event

theorem Guarded.nil {guard : List ε → ε → Prop} : Guarded guard [] := by
  intro before event after h
  cases before with
  | nil => cases h
  | cons _ _ => cases h

theorem Guarded.snoc {guard : List ε → ε → Prop} (h : Guarded guard log)
    (hlast : guard log last) : Guarded guard (log ++ [last]) := by
  intro before event after hsplit
  rcases split_snoc hsplit with ⟨rfl, rfl, -⟩ | ⟨rest, -, hlog⟩
  · exact hlast
  · exact h before event rest hlog

theorem Guarded.of_append {guard : List ε → ε → Prop} {rest : List ε}
    (h : Guarded guard (log ++ rest)) : Guarded guard log := by
  intro before event after hsplit
  apply h before event (after ++ rest)
  rw [hsplit, List.append_assoc, List.cons_append]

/-- An event `here` occurred, and `keep` held of all events after it. -/
def Since (keep here : ε → Prop) (log : List ε) : Prop :=
  ∃ before event after, log = before ++ event :: after ∧ here event ∧ ∀ later ∈ after, keep later

variable {keep here : ε → Prop}

theorem Since.now (h : here last) : Since keep here (log ++ [last]) :=
  ⟨log, last, [], rfl, h, nofun⟩

theorem Since.snoc (h : Since keep here log) (hlast : keep last) :
    Since keep here (log ++ [last]) := by
  obtain ⟨before, event, after, rfl, hhere, hkeep⟩ := h
  refine ⟨before, event, after ++ [last], by rw [List.append_assoc, List.cons_append], hhere, ?_⟩
  intro later hlater
  rcases List.mem_append.mp hlater with hlater | hlater
  · exact hkeep later hlater
  · rw [List.mem_singleton.mp hlater]
    exact hlast

theorem Since.imp {keep' here' : ε → Prop} (h : Since keep here log)
    (hkeep : ∀ event, keep event → keep' event) (hhere : ∀ event, here event → here' event) :
    Since keep' here' log := by
  obtain ⟨before, event, after, hlog, hevent, hafter⟩ := h
  exact ⟨before, event, after, hlog, hhere event hevent, fun later hlater =>
    hkeep later (hafter later hlater)⟩

/-- Events that each need an earlier one of their own are not more than those. -/
theorem countP_le {needs gives : ε → Bool} (hgives : ∀ event, gives event → needs event = false)
    (h : Guarded (fun before event => needs event →
      Since (fun later => needs later = false) (fun given => gives given) before) log) :
    log.countP needs ≤ log.countP gives := by
  induction hn : log.length using Nat.strongRecOn generalizing log with
  | ind n ih =>
      rcases List.eq_nil_or_concat log with rfl | ⟨before, last, rfl⟩
      · exact Nat.le_refl 0
      · rw [List.concat_eq_append] at h hn ⊢
        rw [List.length_append, List.length_singleton] at hn
        rw [List.countP_append, List.countP_append]
        cases hlast : needs last with
        | false =>
            have hbefore := ih before.length (by omega) h.of_append rfl
            rw [List.countP_singleton, hlast]
            show before.countP needs + 0 ≤ _
            omega
        | true =>
            obtain ⟨start, given, after, rfl, hgiven, hafter⟩ :=
              h before last [] rfl hlast
            rw [List.append_assoc] at h
            rw [List.length_append] at hn
            have hstart := ih start.length (by omega) h.of_append rfl
            have hnone : after.countP needs = 0 :=
              List.countP_eq_zero.mpr fun later hlater => by
                rw [hafter later hlater]
                exact Bool.false_ne_true
            rw [List.countP_append, List.countP_append, List.countP_cons_of_pos hgiven,
              List.countP_cons_of_neg (by rw [hgives given hgiven]; exact Bool.false_ne_true),
                hnone,
              List.countP_singleton, hlast, if_pos rfl]
            omega

/-! ## Loops that stop at the first element that is not allowed -/

/-- What a log has as well when it is cut off can be asked of it event by event. -/
theorem guarded_iff {holds : List ε → Prop} (hnil : holds [])
    (hstart : ∀ start rest, holds (start ++ rest) → holds start) :
    Guarded (fun seen event => holds (seen ++ [event])) log ↔ holds log := by
  constructor
  · intro h
    rcases List.eq_nil_or_concat log with rfl | ⟨seen, event, rfl⟩
    · exact hnil
    · rw [List.concat_eq_append] at h ⊢
      exact h seen event [] rfl
  · rintro h seen event rest rfl
    apply hstart _ rest
    rwa [List.append_assoc, List.singleton_append]

/-- A loop whose step decides whether its element is allowed by those before it decides whether all
elements are. -/
theorem Guarded.decides {α σ η : Type} {step : σ → α → Except η σ} {stateOf : List α → σ}
    {guard : List α → α → Prop} {reported : η → Prop}
    (hstep : ∀ seen x, Guarded guard seen →
      Fallible.Decides reported (step (stateOf seen) x) (guard seen x) (stateOf (seen ++ [x])))
    (xs : List α) :
    Fallible.Decides reported (xs.foldlM step (stateOf [])) (Guarded guard xs) (stateOf xs) := by
  induction xs using List.reverseRecOn with
  | nil => exact (Fallible.Decides.of_ok (stateOf [])).congr ⟨fun _ => .nil, fun _ => trivial⟩
  | append_singleton xs x ih =>
      have hrun : Fallible.Decides reported ((xs ++ [x]).foldlM step (stateOf []))
          (Guarded guard xs ∧ guard xs x) (stateOf (xs ++ [x])) := by
        rw [List.foldlM_append]
        refine ih.bind fun hxs => ?_
        rw [List.foldlM_cons]
        exact ((hstep xs x hxs).bind fun _ => .of_ok _).congr (Iff.of_eq (and_true _))
      apply hrun.congr
      constructor
      · rintro ⟨hxs, hx⟩
        exact hxs.snoc hx
      · exact fun h => ⟨h.of_append, h xs x [] rfl⟩

end MaddyWeb.Library.History
