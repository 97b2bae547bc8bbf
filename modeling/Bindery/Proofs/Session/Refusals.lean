/-
# Refusals touch nothing

What is asked of a session is checked before anything is done for it (`Session.plan`). Only the
check refuses:

| demand | is refused for |
| --- | --- |
| call | an argument that cannot be passed |
| call of a method or an operator | a receiver that is no object, a callee that its class has not |
| reading and writing a field | a receiver that is no object, a field that its class has not |
| writing a field | a field that is read-only, a value that cannot be passed |
| type of a view, enumerator, alias | one that there is not |
| type of a class | |

What fails later fails with an error of the cache. So after a refusal the bench is what it was, and
since the check asks nothing of the platform, every platform and every bench get the same refusal
(`Session.refusal_touches_nothing`).
-/

import Bindery.Proofs.Session.Demands
import Bindery.Proofs.Session.Wrapping

namespace Bindery
namespace Session

variable {σ σ' L : Type}

/-- The same library on another platform. -/
def on (s : Session σ L) (p : Platform σ' L) : Session σ' L := ⟨p, s.catalog, s.enums⟩

/-- What is refused is refused on every platform. -/
theorem plan_on_eq_error (s : Session σ L) (p : Platform σ' L) {d : Demand (Binding L)}
    {e : SessionError} (h : s.plan d = .error e) : (s.on p).plan d = .error e := by
  cases d with
  | classType => exact absurd h nofun
  | call | getField | setField | viewType | enumValue | aliasType =>
    exact map_eq_error_iff.2 (map_eq_error_iff.1 h)

/-- Only a demand that is not carried out is refused. -/
theorem plan_eq_error_of_isRefusal (s : Session σ L) {d : Demand (Binding L)} {b b' : Bench σ L}
    {e : SessionError} (h : exec (s.answer d) b = (.error e, b')) (refused : e.isRefusal = true) :
    s.plan d = .error e := by
  rw [exec_answer] at h
  cases hplan : s.plan d with
  | error e' =>
    rw [hplan] at h
    rw [Except.error.inj (congrArg Prod.fst h)]
  | ok work =>
    rw [hplan] at h
    obtain ⟨_, -, rfl⟩ := exists_of_mapError_eq_error (congrArg Prod.fst h)
    exact absurd refused nofun

/-- **A refusal touches nothing.** If anything that can be asked of a session is refused, for its
arguments, its receiver, or what the catalog and the enumerations have, then the bench is what it
was: all that is loaded, registered, indexed and counted, every file, and whatever runs outside. Any
platform and any bench would have got the same refusal and been left alone, so nothing was compiled,
loaded or called. -/
theorem refusal_touches_nothing (s : Session σ L) {d : Demand (Binding L)} {b b' : Bench σ L}
    {e : SessionError} (h : exec (s.answer d) b = (.error e, b')) (refused : e.isRefusal = true) :
    b' = b ∧ ∀ (σ' : Type) (p : Platform σ' L) (b₁ : Bench σ' L),
      exec ((s.on p).answer d) b₁ = (.error e, b₁) := by
  have hplan := s.plan_eq_error_of_isRefusal h refused
  refine ⟨?_, fun σ' p b₁ => ?_⟩
  · rw [exec_answer, hplan] at h
    exact (congrArg Prod.snd h).symm
  · rw [exec_answer, s.plan_on_eq_error p hplan]

/-- A function is called with a number, then with nothing. -/
def badCall : Demand (Binding Empty) := .call (.function "f" [.owned (.int 1), .owned .void] {})

/-- A bench without files. -/
def idle (outside : σ) : Bench σ Empty := ⟨{ dir := "/build", context := {} }, ⟨{}, outside, 0⟩⟩

/-- The hypotheses of `refusal_touches_nothing` are satisfiable: the second argument cannot be
passed, and the first one leaves no trace on any platform. -/
theorem refusal_touches_nothing_badCall :
    SessionError.isRefusal (.type .void) = true ∧
      exec ((bare (.bare Unit)).answer badCall) (idle ()) = (.error (.type .void), idle ()) ∧
      exec ((bare (.bare Nat)).answer badCall) (idle 0) = (.error (.type .void), idle 0) := by
  have refused : exec ((bare (.bare Unit)).answer badCall) (idle ()) =
      (.error (.type .void), idle ()) := rfl
  have hrefusal : SessionError.isRefusal (.type .void) = true := rfl
  have hother := ((bare (.bare Unit)).refusal_touches_nothing refused hrefusal).2
  exact ⟨hrefusal, refused, hother Nat (.bare Nat) (idle 0)⟩

end Session
end Bindery
