import Mathlib.Data.List.Basic
import Mathlib.Tactic.Common

/-! # Histories

A history is the list of what has happened, the oldest first. Two questions are
asked of it: what the last event of a kind was, and whether every event was
justified by the events before it. -/
namespace Jukeboy.Base.History

variable {α β : Type}

/-- What `f` reads off the last event it reads anything off. -/
def latest (f : α → Option β) (log : List α) : Option β := (log.filterMap f).getLast?

@[simp] theorem latest_nil (f : α → Option β) : latest f [] = none := rfl

theorem latest_append_of_none {f : α → Option β} {log more : List α}
    (h : ∀ a ∈ more, f a = none) : latest f (log ++ more) = latest f log := by
  have hnil : more.filterMap f = [] := List.filterMap_eq_nil_iff.mpr h
  rw [latest, List.filterMap_append, hnil, List.append_nil, latest]

theorem latest_snoc {f : α → Option β} {log : List α} {a : α} {b : β} (h : f a = some b) :
    latest f (log ++ [a]) = some b := by
  rw [latest, List.filterMap_append, List.filterMap_cons_some h, List.filterMap_nil,
    List.getLast?_concat]

theorem exists_of_latest {f : α → Option β} {log : List α} {b : β} (h : latest f log = some b) :
    ∃ a ∈ log, f a = some b :=
  List.mem_filterMap.mp (List.mem_of_getLast? h)

/-- Every event of the history is justified by the events before it. -/
def Justified (J : List α → α → Prop) (log : List α) : Prop :=
  ∀ pre a post, log = pre ++ a :: post → J pre a

theorem justified_nil (J : List α → α → Prop) : Justified J [] := by
  intro pre a post h
  cases pre <;> cases h

theorem justified_append {J : List α → α → Prop} {log more : List α} :
    Justified J (log ++ more) ↔
      Justified J log ∧ Justified (fun pre a => J (log ++ pre) a) more := by
  constructor
  · intro h
    refine ⟨fun pre a post heq => ?_, fun pre a post heq => ?_⟩
    · exact h pre a (post ++ more) (by rw [heq, List.append_assoc, List.cons_append])
    · exact h (log ++ pre) a post (by rw [heq, List.append_assoc])
  · rintro ⟨hlog, hmore⟩ pre a post heq
    rcases List.append_eq_append_iff.mp heq with ⟨mid, rfl, hm⟩ | ⟨mid, rfl, hm⟩
    · exact hmore mid a post hm
    · cases mid with
      | nil =>
        simpa only [List.append_nil] using hmore [] a post hm.symm
      | cons b mid =>
        obtain ⟨rfl, -⟩ := List.cons.inj hm
        exact hlog pre _ mid rfl

theorem justified_of_forall {J : List α → α → Prop} {log : List α}
    (h : ∀ pre, ∀ a ∈ log, J pre a) : Justified J log := by
  intro pre a post heq
  refine h pre a ?_
  rw [heq]
  exact List.mem_append_right pre (List.mem_cons_self ..)

theorem justified_singleton {J : List α → α → Prop} {a : α} : Justified J [a] ↔ J [] a := by
  constructor
  · intro h
    exact h [] a [] rfl
  · intro h pre b post heq
    cases pre with
    | nil => obtain ⟨rfl, -⟩ := List.cons.inj heq; exact h
    | cons c pre => obtain ⟨-, hnil⟩ := List.cons.inj heq; cases pre <;> cases hnil

theorem justified_snoc {J : List α → α → Prop} {log : List α} {a : α} :
    Justified J (log ++ [a]) ↔ Justified J log ∧ J log a := by
  rw [justified_append, justified_singleton, List.append_nil]

end Jukeboy.Base.History
