import Jukeboy.Base.Calls

/-! # Programs that hold handles

A protocol says which calls may be made in a state, what they may answer, and what state
follows. The protocol of handles is the one in which calls make handles, use them and
give them back. -/
namespace Jukeboy.Base.Calls

variable {C : Type} {R : C → Type} {S α β E H : Type}

/-- When a call may be made, what it may answer, and the state after it. -/
structure Protocol (R : C → Type) (S : Type) where
  may : S → C → Prop
  answers : S → (c : C) → R c → Prop
  next : S → (c : C) → R c → S

/-- The same protocol, with what is seen of the answers beside the state. -/
def Protocol.observe (P : Protocol R S) (seen : (c : C) → R c → List E) :
    Protocol R (S × List E) where
  may s c := P.may s.1 c
  answers s c r := P.answers s.1 c r
  next s c r := (P.next s.1 c r, s.2 ++ seen c r)

namespace Prog

/-- Whatever is answered, every call is made when it may be, and the end meets `Q`. -/
def Obeys (P : Protocol R S) (Q : S → α → Prop) : S → Prog R α → Prop
  | s, .done a => Q s a
  | s, .call c k => P.may s c ∧ ∀ r, P.answers s c r → Obeys P Q (P.next s c r) (k r)

/-- A run, with the calls it makes and what they answer. -/
inductive Run (P : Protocol R S) : S → Prog R α → List (Σ c, R c) → S → α → Prop where
  | done {s : S} (a : α) : Run P s (.done a) [] s a
  | call {s t : S} {c : C} {k : R c → Prog R α} {es : List (Σ c, R c)} {a : α} (r : R c)
      (h : P.answers s c r) (hrun : Run P (P.next s c r) (k r) es t a) :
      Run P s (.call c k) (⟨c, r⟩ :: es) t a

/-- Every one of the calls is made when it may be. -/
def Allowed (P : Protocol R S) : S → List (Σ c, R c) → Prop
  | _, [] => True
  | s, e :: es => P.may s e.1 ∧ Allowed P (P.next s e.1 e.2) es

variable {P : Protocol R S} {Q : S → α → Prop} {Q' : S → β → Prop} {s t : S}

theorem Obeys.bind {p : Prog R α} {f : α → Prog R β} (hp : p.Obeys P Q s)
    (hf : ∀ t a, Q t a → (f a).Obeys P Q' t) : (p >>= f).Obeys P Q' s := by
  induction p generalizing s with
  | done a => exact hf s a hp
  | call c k ih => exact ⟨hp.1, fun r hr => ih r (hp.2 r hr)⟩

/-- A call, then the rest. -/
theorem obeys_perform_bind {c : C} {f : R c → Prog R α} (hmay : P.may s c)
    (hf : ∀ r, P.answers s c r → (f r).Obeys P Q (P.next s c r)) :
    (perform c >>= f).Obeys P Q s := ⟨hmay, hf⟩

theorem Obeys.run {p : Prog R α} {es : List (Σ c, R c)} {a : α} (hp : p.Obeys P Q s)
    (hrun : Run P s p es t a) : Allowed P s es ∧ Q t a := by
  induction hrun with
  | done a => exact ⟨trivial, hp⟩
  | call r hr _ ih =>
    obtain ⟨hallowed, hq⟩ := ih (hp.2 r hr)
    exact ⟨⟨hp.1, hallowed⟩, hq⟩

/-- Where every call can be answered, every program has a run. -/
theorem exists_run (hanswers : ∀ s c, ∃ r, P.answers s c r) (p : Prog R α) (s : S) :
    ∃ es t a, Run P s p es t a := by
  induction p generalizing s with
  | done a => exact ⟨[], s, a, .done a⟩
  | call c k ih =>
    obtain ⟨r, hr⟩ := hanswers s c
    obtain ⟨es, t, a, hrun⟩ := ih r (P.next s c r)
    exact ⟨⟨c, r⟩ :: es, t, a, .call r hr hrun⟩

end Prog

/-! ## Handles -/

/-- What calls do with handles: those they use, the one that an answer makes, and the
one that a call gives back. `requires` and `answers` are what else is asked of a call, and
of what it answers. -/
structure Usage (R : C → Type) (H : Type) where
  requires : C → Prop
  answers : (c : C) → R c → Prop
  uses : C → List H
  makes : (c : C) → R c → Option H
  frees : C → Option H
  /-- What a handle rests on. -/
  parent : H → Option H

namespace Usage

/-- A handle that is new. -/
def Fresh (u : Usage R H) (held : List H) (h : H) : Prop :=
  ∀ x ∈ held, x ≠ h ∧ u.parent x ≠ some h

theorem fresh_nil (u : Usage R H) (h : H) : u.Fresh [] h := fun _ hx => absurd hx List.not_mem_nil

theorem fresh_cons {u : Usage R H} {held : List H} {x h : H} :
    u.Fresh (x :: held) h ↔ (x ≠ h ∧ u.parent x ≠ some h) ∧ u.Fresh held h := List.forall_mem_cons

variable [DecidableEq H]

/-- What is held after a call that gives back a handle. -/
def without (held : List H) : Option H → List H
  | some h => held.erase h
  | none => held

/-- The state is what is held. A call uses what is held; a handle is given back once, and
not while another rests on it; and one that is made is new. -/
def protocol (u : Usage R H) : Protocol R (List H) where
  may held c := u.requires c ∧ (∀ h ∈ u.uses c, h ∈ held) ∧
    ∀ h ∈ u.frees c, h ∈ held ∧ ∀ x ∈ held, u.parent x ≠ some h
  answers held c r := u.answers c r ∧
    ∀ h ∈ u.makes c r, u.Fresh held h
  next held c r := (u.makes c r).toList ++ without held (u.frees c)

/-- The handles that are made, and those that are given back. -/
def made (u : Usage R H) (es : List (Σ c, R c)) : List H := es.filterMap fun e => u.makes e.1 e.2

def freed (u : Usage R H) (es : List (Σ c, R c)) : List H := es.filterMap fun e => u.frees e.1

variable {u : Usage R H} {held held' : List H}

/-- What one call does to the number of times a handle is held. -/
theorem count_next {c : C} (hmay : u.protocol.may held c) (r : R c) (h : H) :
    (u.protocol.next held c r).count h + (u.frees c).toList.count h =
      held.count h + (u.makes c r).toList.count h := by
  change ((u.makes c r).toList ++ without held (u.frees c)).count h + _ = _
  rw [List.count_append]
  cases hfrees : u.frees c with
  | none =>
    rw [without, Option.toList_none, List.count_nil]
    omega
  | some x =>
    obtain ⟨hx, -⟩ := hmay.2.2 x hfrees
    have hcount := (List.perm_cons_erase hx).count_eq h
    rw [without, Option.toList_some, List.count_cons, List.count_nil]
    rw [List.count_cons] at hcount
    omega

theorem count_run {p : Prog R α} {es : List (Σ c, R c)} {a : α}
    (hrun : Prog.Run u.protocol held p es held' a) (hallowed : Prog.Allowed u.protocol held es)
    (h : H) : held'.count h + (u.freed es).count h = held.count h + (u.made es).count h := by
  induction hrun with
  | done a => rfl
  | @call s t c k es a r hr hrun ih =>
    have hrest := ih hallowed.2
    have hmay : u.protocol.may s c := hallowed.1
    have hnext := count_next hmay r h
    have hfreed : u.freed (⟨c, r⟩ :: es) = (u.frees c).toList ++ u.freed es := by
      unfold freed
      rw [List.filterMap_cons]
      cases u.frees c <;> rfl
    have hmade : u.made (⟨c, r⟩ :: es) = (u.makes c r).toList ++ u.made es := by
      unfold made
      rw [List.filterMap_cons]
      cases u.makes c r <;> rfl
    rw [hfreed, hmade, List.count_append, List.count_append]
    omega

/-- A program that ends with what it held at first gives back what it makes. -/
theorem perm_of_run {p : Prog R α} {es : List (Σ c, R c)} {a : α}
    (hrun : Prog.Run u.protocol held p es held a) (hallowed : Prog.Allowed u.protocol held es) :
    (u.made es).Perm (u.freed es) := by
  rw [List.perm_iff_count]
  intro h
  have hcount := count_run hrun hallowed h
  omega

/-! ## Rules -/

variable {seen : (c : C) → R c → List E} {so : List E} {Q : List H × List E → α → Prop} {c : C}
  {f : R c → Prog R α}

/-- A call that makes nothing and gives nothing back. -/
theorem obeys_call (hrequires : u.requires c) (huses : ∀ h ∈ u.uses c, h ∈ held)
    (hfrees : u.frees c = none) (hmakes : ∀ r, u.makes c r = none)
    (hf : ∀ r, u.answers c r →
      (f r).Obeys (u.protocol.observe seen) Q (held, so ++ seen c r)) :
    (Prog.perform c >>= f).Obeys (u.protocol.observe seen) Q (held, so) := by
  refine Prog.obeys_perform_bind ⟨hrequires, huses, fun h hh => ?_⟩ fun r hr => ?_
  · rw [hfrees] at hh
    cases hh
  · have hnext : u.protocol.next held c r = held := by
      change (u.makes c r).toList ++ without held (u.frees c) = held
      rw [hmakes, hfrees]
      rfl
    change (f r).Obeys _ Q (u.protocol.next held c r, so ++ seen c r)
    rw [hnext]
    exact hf r hr.1

/-- A call that may make a handle. -/
theorem obeys_make (hrequires : u.requires c) (huses : ∀ h ∈ u.uses c, h ∈ held)
    (hfrees : u.frees c = none) (hseen : ∀ r, seen c r = [])
    (hnone : ∀ r, u.answers c r → u.makes c r = none →
      (f r).Obeys (u.protocol.observe seen) Q (held, so))
    (hsome : ∀ r h, u.answers c r → u.makes c r = some h → u.Fresh held h →
      (f r).Obeys (u.protocol.observe seen) Q (h :: held, so)) :
    (Prog.perform c >>= f).Obeys (u.protocol.observe seen) Q (held, so) := by
  refine Prog.obeys_perform_bind ⟨hrequires, huses, fun h hh => ?_⟩ fun r hr => ?_
  · rw [hfrees] at hh
    cases hh
  · change (f r).Obeys _ Q ((u.makes c r).toList ++ without held (u.frees c), so ++ seen c r)
    rw [hseen, hfrees, List.append_nil]
    cases hmakes : u.makes c r with
    | none => exact hnone r hr.1 hmakes
    | some h => exact hsome r h hr.1 hmakes (hr.2 h hmakes)

/-- A call that gives a handle back, which stands behind some that do not rest on it. -/
theorem obeys_free (newer : List H) {h : H} (hrequires : u.requires c)
    (huses : ∀ x ∈ u.uses c, x ∈ newer ++ h :: held) (hfrees : u.frees c = some h)
    (hmakes : ∀ r, u.makes c r = none) (hseen : ∀ r, seen c r = [])
    (hnewer : u.Fresh newer h) (hself : u.parent h ≠ some h) (hfresh : u.Fresh held h)
    (hf : ∀ r, (f r).Obeys (u.protocol.observe seen) Q (newer ++ held, so)) :
    (Prog.perform c >>= f).Obeys (u.protocol.observe seen) Q (newer ++ h :: held, so) := by
  refine Prog.obeys_perform_bind ⟨hrequires, huses, fun x hx => ?_⟩ fun r _ => ?_
  · obtain rfl : h = x := Option.some.inj (hfrees.symm.trans hx)
    refine ⟨List.mem_append_right _ List.mem_cons_self, fun x hx => ?_⟩
    rcases List.mem_append.mp hx with hx | hx
    · exact (hnewer x hx).2
    · rcases List.mem_cons.mp hx with rfl | hx
      · exact hself
      · exact (hfresh x hx).2
  · have herase : (newer ++ h :: held).erase h = newer ++ held := by
      rw [List.erase_append_right _ fun hmem => (hnewer h hmem).1 rfl, List.erase_cons_head]
    change (f r).Obeys _ Q ((u.makes c r).toList ++ without (newer ++ h :: held) (u.frees c),
      so ++ seen c r)
    rw [hmakes, hseen, hfrees, List.append_nil, without, herase]
    exact hf r

/-- A program that is safe with its handles: it runs, every call of every run is allowed, what is
made is given back, and the end, with what was seen, meets `Q`. -/
structure Tidy (u : Usage R H) (seen : (c : C) → R c → List E) (Q : List E → α → Prop)
    (held : List H) (p : Prog R α) : Prop where
  runs : ∃ es t a, Prog.Run (u.protocol.observe seen) (held, []) p es t a
  allowed {es : List (Σ c, R c)} {t : List H × List E} {a : α}
    (hrun : Prog.Run (u.protocol.observe seen) (held, []) p es t a) :
    Prog.Allowed (u.protocol.observe seen) (held, []) es
  balanced {es : List (Σ c, R c)} {t : List H × List E} {a : α}
    (hrun : Prog.Run (u.protocol.observe seen) (held, []) p es t a) :
    t.1 = held ∧ (u.made es).Perm (u.freed es)
  result {es : List (Σ c, R c)} {t : List H × List E} {a : α}
    (hrun : Prog.Run (u.protocol.observe seen) (held, []) p es t a) : Q t.2 a

/-- A run that is observed is a run. -/
theorem run_of_observe {p : Prog R α} {es : List (Σ c, R c)} {s t : List H × List E} {a : α}
    (hrun : Prog.Run (u.protocol.observe seen) s p es t a) :
    Prog.Run u.protocol s.1 p es t.1 a := by
  induction hrun with
  | done a => exact .done a
  | call r hr _ ih => exact .call r hr ih

theorem allowed_of_observe {es : List (Σ c, R c)} {s : List H × List E}
    (h : Prog.Allowed (u.protocol.observe seen) s es) : Prog.Allowed u.protocol s.1 es := by
  induction es generalizing s with
  | nil => trivial
  | cons e es ih => exact ⟨h.1, ih h.2⟩

theorem tidy_of_obeys {Q : List E → α → Prop} {p : Prog R α}
    (hanswers : ∀ held c, ∃ r, u.protocol.answers held c r)
    (h : p.Obeys (u.protocol.observe seen) (fun t a => t.1 = held ∧ Q t.2 a) (held, [])) :
    u.Tidy seen Q held p where
  runs := Prog.exists_run (fun s c => hanswers s.1 c) p (held, [])
  allowed hrun := (h.run hrun).1
  balanced hrun := by
    obtain ⟨hallowed, hheld, -⟩ := h.run hrun
    have hplain := run_of_observe hrun
    rw [hheld] at hplain
    exact ⟨hheld, perm_of_run hplain (allowed_of_observe hallowed)⟩
  result hrun := (h.run hrun).2.2

end Usage

end Jukeboy.Base.Calls
