/-
# What a wrapper was written for

From the source of a wrapper one can read off what it calls and the type of each argument, if one
knows how each argument is passed (`Source.eq_of_wrapper_eq`). Without that one cannot: text in a
character buffer is read like a text by value.
-/

import Bindery.Proofs.Call.Marshalled
import Bindery.Source.Wrapper

namespace Bindery
namespace Source

/-- The statements that read an argument tell its type. -/
theorem eq_of_readArg_append {i : Nat} {a b : ArgSpec} {r s : List Stmt}
    (hpassing : a.passing = b.passing) (ha : a.Regular) (hb : b.Regular)
    (h : readArg i a ++ r = readArg i b ++ s) : a = b ∧ r = s := by
  obtain ⟨type, passing⟩ := a
  obtain ⟨type', passing'⟩ := b
  obtain rfl : passing = passing' := hpassing
  cases passing with
  | value | reference | pointer =>
    obtain ⟨hhead, htail⟩ := List.cons.inj h
    obtain ⟨rfl, -, -, -⟩ := Stmt.declare.inj hhead
    exact ⟨rfl, htail⟩
  | pointerToValue =>
    obtain ⟨hhead, htail⟩ := List.cons.inj h
    obtain ⟨rfl, -, -, -⟩ := Stmt.declare.inj hhead
    exact ⟨rfl, (List.cons.inj htail).2⟩
  | text =>
    obtain rfl : type = charsType := ha rfl
    obtain rfl : type' = charsType := hb rfl
    exact ⟨rfl, (List.cons.inj h).2⟩

/-- Arguments that are passed in the same ways can be read back. Induction on the arguments: the
statements of the first one end where its passing says. -/
theorem eq_of_readArgs_append {xs ys : List ArgSpec} {r s : List Stmt}
    (hpassing : xs.map (·.passing) = ys.map (·.passing)) (hx : ∀ a ∈ xs, a.Regular)
    (hy : ∀ a ∈ ys, a.Regular) (i : Nat)
    (h : (indexed readArg i xs).flatten ++ r = (indexed readArg i ys).flatten ++ s) :
    xs = ys ∧ r = s := by
  induction xs generalizing ys i with
  | nil =>
    obtain rfl : ys = [] := List.map_eq_nil_iff.1 hpassing.symm
    exact ⟨rfl, h⟩
  | cons a xs ih =>
    cases ys with
    | nil => exact absurd hpassing (List.cons_ne_nil _ _)
    | cons b ys =>
      obtain ⟨hhead, htail⟩ := List.cons.inj hpassing
      simp only [indexed, List.flatten_cons, List.append_assoc] at h
      obtain ⟨rfl, hrest⟩ := eq_of_readArg_append hhead (hx a (List.mem_cons_self ..))
        (hy b (List.mem_cons_self ..)) h
      obtain ⟨rfl, hrs⟩ := ih htail (fun c hc => hx c (List.mem_cons_of_mem _ hc))
        (fun c hc => hy c (List.mem_cons_of_mem _ hc)) (i + 1) hrest
      exact ⟨rfl, hrs⟩

/-- The operator that a statement applies, if it is the last statement of an operator's wrapper. -/
def operatorOf? : Stmt → Option Operator
  | .ret (some (.binary .add _ _)) => some .add
  | .ret (some (.binary .sub _ _)) => some .sub
  | .ret (some (.index _ _)) => some .getItem
  | .assign _ _ => some .setItem
  | .ret (some (.call _ _)) => some .call
  | .ret (some (.deref _)) => some .deref
  | _ => none

theorem operatorOf?_of_operatorStmt {op : Operator} {operands : List Expr} {stmt : Stmt}
    (h : operatorStmt op operands = .ok stmt) : operatorOf? stmt = some op := by
  unfold operatorStmt at h
  split at h
  case h_7 => exact absurd h nofun
  all_goals
    obtain rfl := Except.ok.inj h
    rfl

/-- The call operator takes its first operand for the callee, which nothing else does. -/
theorem eq_of_callStmt_operator {op : Operator} {target : Target} {operands : List Expr}
    {stmt : Stmt} (h : callStmt (.operator op) operands = .ok stmt)
    (h' : callStmt target operands = .ok stmt) : target = .operator op := by
  have hop := operatorOf?_of_operatorStmt (show operatorStmt op operands = .ok stmt from h)
  cases target with
  | operator op' =>
    have hop' := operatorOf?_of_operatorStmt (show operatorStmt op' operands = .ok stmt from h')
    rw [Option.some.inj (hop'.symm.trans hop)]
  | constructor cppType =>
    obtain rfl := Except.ok.inj h'
    exact absurd hop nofun
  | function qualified =>
    obtain rfl := Except.ok.inj h'
    obtain rfl : Operator.call = op := Option.some.inj hop
    cases operands with
    | nil => exact absurd h nofun
    | cons a args =>
      obtain ⟨-, hargs⟩ := Expr.call.inj (Option.some.inj (Stmt.ret.inj (Except.ok.inj h)))
      exact absurd hargs.symm (List.cons_ne_self a args)
  | method name =>
    cases operands with
    | nil => exact absurd h' nofun
    | cons a args =>
      obtain rfl := Except.ok.inj h'
      obtain rfl : Operator.call = op := Option.some.inj hop
      obtain ⟨hcallee, -⟩ := Expr.call.inj (Option.some.inj (Stmt.ret.inj (Except.ok.inj h)))
      have hsize := congrArg sizeOf hcallee
      rw [Expr.member.sizeOf_spec] at hsize
      omega

/-- **One statement comes from one target,** applied to the same operands. -/
theorem callStmt_injective {target target' : Target} {operands : List Expr} {stmt : Stmt}
    (h : callStmt target operands = .ok stmt) (h' : callStmt target' operands = .ok stmt) :
    target = target' := by
  cases target with
  | operator op => exact (eq_of_callStmt_operator h h').symm
  | function qualified =>
    obtain rfl := Except.ok.inj h
    cases target' with
    | operator op => exact eq_of_callStmt_operator h' h
    | function qualified' => simpa [callStmt] using h'.symm
    | constructor cppType => simp [callStmt] at h'
    | method name => cases operands <;> simp [callStmt] at h'
  | constructor cppType =>
    obtain rfl := Except.ok.inj h
    cases target' with
    | operator op => exact eq_of_callStmt_operator h' h
    | function qualified => simp [callStmt] at h'
    | constructor cppType' => simpa [callStmt] using h'.symm
    | method name => cases operands <;> simp [callStmt] at h'
  | method name =>
    cases operands with
    | nil => exact absurd h nofun
    | cons a args =>
      obtain rfl := Except.ok.inj h
      cases target' with
      | operator op => exact eq_of_callStmt_operator h' h
      | function qualified => simp [callStmt] at h'
      | constructor cppType => simp [callStmt] at h'
      | method name' => simpa [callStmt] using h'.symm

/-- **A wrapper is written for one call.** If two calls pass their arguments in the same ways and
have one wrapper, they have one target and the same types. -/
theorem eq_of_wrapper_eq {c d : Call} {unit : Unit} (hc : wrapper c = .ok unit)
    (hd : wrapper d = .ok unit) (hpassing : c.args.map (·.passing) = d.args.map (·.passing))
    (hcr : ∀ a ∈ c.args, a.Regular) (hdr : ∀ a ∈ d.args, a.Regular) :
    c.target = d.target ∧ c.args = d.args := by
  obtain ⟨stmt, hstmt, rfl⟩ := exists_of_map_eq_ok hc
  obtain ⟨stmt', hstmt', hunit⟩ := exists_of_map_eq_ok hd
  have hitem := (List.cons.inj (congrArg Unit.items hunit)).1
  have hbody := congrArg Function.body (Item.function.inj hitem)
  obtain ⟨hargs, hlast⟩ := eq_of_readArgs_append hpassing.symm hdr hcr 0 hbody
  obtain rfl := (List.cons.inj hlast).1
  rw [hargs] at hstmt'
  exact ⟨callStmt_injective hstmt hstmt', hargs.symm⟩

end Source
end Bindery
