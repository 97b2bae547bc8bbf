/-
# What a wrapper does with its arguments

A target accepts a number of arguments (`Target.Accepts`), and a call has a wrapper if and only if
its target accepts as many as there are (`exists_wrapper_iff`):

| target | arguments |
| --- | --- |
| function, constructor | any number |
| method, call operator | one or more, the first is the receiver |
| any other operator | the receiver and as many operands as the operator takes |

The wrapper first reads the arguments in order (`ReadsArg`), each into a local that has its number.
For an argument with the number 3 and the type `T` it declares

| passing | declarations | operand |
| --- | --- | --- |
| value | `T a3 = bind::read<T>(args[3]);` | `a3` |
| reference | `T &a3 = bind::deref<T>(args[3]);` | `a3` |
| pointer | `T *a3 = bind::pointer<T>(args[3]);` | `a3` |
| pointer to a value | `T s3 = bind::read<T>(args[3]);` and `T *a3 = &s3;` | `a3` |
| text | `std::string a3 = bind::read<std::string>(args[3]);` | `a3.data()` |

and it declares no name twice (`ReadsArgs.nodup_declared`). One statement follows, which applies the
target to the operands (`Applies`). What it is made of is the name of the target, if that is a
function, and the local of each argument once, in order (`Applies.leaves`): no local twice, and no
number or text in the place of one. An operator whose operands are taken one by one, with a spare
one in the place of any that is missing, has the same statement: the spare one is never taken
(`operatorStmtWith_eq_ok_iff`).
-/

import Bindery.Proofs.Outcome
import Bindery.Source.Wrapper
import Mathlib.Data.List.Nodup

namespace Bindery

namespace Source

/-! ### Targets -/

/-- A target can be called with so many arguments, the receiver among them. -/
def Target.Accepts (n : Nat) : Target → Prop
  | .function _ => True
  | .constructor _ => True
  | .method _ => 1 ≤ n
  | .operator op => match op.arity with
    | some k => n = k + 1
    | none => 1 ≤ n

theorem accepts_operator {op : Operator} {n : Nat} (h : ∀ k ∈ op.arity, k = n) :
    Target.Accepts (n + 1) (.operator op) := by
  cases op with
  | call => exact Nat.le_add_left 1 n
  | add | sub | getItem | setItem | deref => exact congrArg (· + 1) (h _ rfl).symm

/-- A statement applies a target to operands. -/
inductive Applies : Target → List Expr → Stmt → Prop
  | function {qualified operands} :
    Applies (.function qualified) operands (.ret (some (.call (.ident qualified) operands)))
  | constructor {type operands} :
    Applies (.constructor type) operands (.ret (some (.new type operands)))
  | method {name receiver args} :
    Applies (.method name) (receiver :: args) (.ret (some (.call (.member receiver name) args)))
  | add {a b} : Applies (.operator .add) [a, b] (.ret (some (.binary .add a b)))
  | sub {a b} : Applies (.operator .sub) [a, b] (.ret (some (.binary .sub a b)))
  | getItem {a i} : Applies (.operator .getItem) [a, i] (.ret (some (.index a i)))
  | setItem {a i v} : Applies (.operator .setItem) [a, i, v] (.assign (.index a i) v)
  | call {a args} : Applies (.operator .call) (a :: args) (.ret (some (.call a args)))
  | deref {a} : Applies (.operator .deref) [a] (.ret (some (.deref a)))

theorem applies_of_operatorStmt {op : Operator} {operands : List Expr} {stmt : Stmt}
    (h : operatorStmt op operands = .ok stmt) : Applies (.operator op) operands stmt := by
  unfold operatorStmt at h
  split at h
  case h_7 => exact absurd h nofun
  all_goals
    obtain rfl := Except.ok.inj h
    constructor

/-- **The statement of a call applies its target.** -/
theorem callStmt_eq_ok_iff {target : Target} {operands : List Expr} {stmt : Stmt} :
    callStmt target operands = .ok stmt ↔ Applies target operands stmt := by
  constructor
  · intro h
    cases target with
    | function | constructor =>
      obtain rfl := Except.ok.inj h
      constructor
    | method name =>
      cases operands with
      | nil => exact absurd h nofun
      | cons receiver args =>
        obtain rfl := Except.ok.inj h
        constructor
    | operator op => exact applies_of_operatorStmt h
  · intro h
    cases h <;> rfl

theorem Applies.accepts {target : Target} {operands : List Expr} {stmt : Stmt}
    (h : Applies target operands stmt) : target.Accepts operands.length := by
  cases h with
  | function | constructor => trivial
  | method | call => exact Nat.le_add_left 1 _
  | add | sub | getItem | setItem | deref => rfl

/-- An operator with its receiver and as many operands as it takes is applied. -/
theorem exists_applies_operator {op : Operator} {operands : List Expr}
    (h : Target.Accepts operands.length (.operator op)) :
    ∃ stmt, Applies (.operator op) operands stmt := by
  cases op with
  | add | sub | getItem =>
    obtain ⟨a, b, rfl⟩ := List.length_eq_two.1 h
    constructor
    constructor
  | setItem =>
    obtain ⟨a, i, v, rfl⟩ := List.length_eq_three.1 h
    exact ⟨_, .setItem⟩
  | call =>
    obtain ⟨a, args, rfl⟩ := List.exists_cons_of_length_pos h
    exact ⟨_, .call⟩
  | deref =>
    obtain ⟨a, rfl⟩ := List.length_eq_one_iff.1 h
    exact ⟨_, .deref⟩

theorem exists_applies_iff {target : Target} {operands : List Expr} :
    (∃ stmt, Applies target operands stmt) ↔ target.Accepts operands.length := by
  refine ⟨fun ⟨_, h⟩ => h.accepts, fun h => ?_⟩
  cases target with
  | function => exact ⟨_, .function⟩
  | constructor => exact ⟨_, .constructor⟩
  | method =>
    obtain ⟨receiver, args, rfl⟩ := List.exists_cons_of_length_pos h
    exact ⟨_, .method⟩
  | operator op => exact exists_applies_operator h

theorem length_indexed {α β : Type} (f : Nat → α → β) (i : Nat) (xs : List α) :
    (indexed f i xs).length = xs.length := by
  induction xs generalizing i with
  | nil => rfl
  | cons a xs ih => rw [indexed, List.length_cons, List.length_cons, ih]

/-- **A call has a wrapper if and only if its target accepts its arguments.** -/
theorem exists_wrapper_iff {c : Call} :
    (∃ u, wrapper c = .ok u) ↔ c.target.Accepts c.args.length := by
  rw [← length_indexed operand 0 c.args, ← exists_applies_iff, wrapper]
  constructor
  · rintro ⟨u, h⟩
    obtain ⟨stmt, hstmt, -⟩ := exists_of_map_eq_ok h
    exact ⟨stmt, callStmt_eq_ok_iff.1 hstmt⟩
  · rintro ⟨stmt, h⟩
    rw [callStmt_eq_ok_iff.2 h]
    exact ⟨_, rfl⟩

/-! ### Spare operands -/

/-- Any other number of operands is refused. -/
theorem operatorStmt_of_not_accepts {op : Operator} {operands : List Expr}
    (h : ¬ Target.Accepts operands.length (.operator op)) :
    operatorStmt op operands =
      .error (.operandCount op ((op.arity.map (· + 1)).getD 1) operands.length) := by
  unfold operatorStmt
  split
  case h_7 => cases op <;> rfl
  all_goals exact absurd (Applies.accepts (by constructor)) h

/-- The statement of an operator, as one writes it who checks the number of operands and then takes
them one by one, with a spare one in the place of any that is missing. -/
def operatorStmtWith (spare : Expr) (op : Operator) (operands : List Expr) :
    Except EmitError Stmt :=
  let expected := op.arity.map (· + 1)
  if expected.any (· != operands.length) || operands.isEmpty then
    .error (.operandCount op (expected.getD 1) operands.length)
  else
    let a := operands.headD spare
    let b := operands.tail.headD spare
    .ok (match op with
      | .add => .ret (some (.binary .add a b))
      | .sub => .ret (some (.binary .sub a b))
      | .getItem => .ret (some (.index a b))
      | .setItem => .assign (.index a b) (operands.tail.tail.headD spare)
      | .call => .ret (some (.call a operands.tail))
      | .deref => .ret (some (.deref a)))

theorem operatorStmtWith_eq (spare : Expr) (op : Operator) (operands : List Expr) :
    operatorStmtWith spare op operands = operatorStmt op operands := by
  by_cases h : Target.Accepts operands.length (.operator op)
  · obtain ⟨stmt, happlies⟩ := exists_applies_operator h
    refine Eq.trans ?_ (callStmt_eq_ok_iff.2 happlies).symm
    cases happlies <;> rfl
  · have hcount : ((op.arity.map (· + 1)).any (· != operands.length) || operands.isEmpty) =
        true := by
      rw [Target.Accepts] at h
      cases harity : op.arity with
      | some k =>
        have hne : k + 1 ≠ operands.length := by
          rw [harity] at h
          exact Ne.symm h
        simp [hne]
      | none =>
        have hnone : operands = [] := by
          rw [harity] at h
          exact List.length_eq_zero_iff.1 (Nat.lt_one_iff.1 (Nat.not_le.1 h))
        simp [hnone]
    rw [operatorStmt_of_not_accepts h]
    exact if_pos hcount

/-- **The spare operand is never taken,** whatever it is: the operator is applied to the operands. -/
theorem operatorStmtWith_eq_ok_iff {spare : Expr} {op : Operator} {operands : List Expr}
    {stmt : Stmt} :
    operatorStmtWith spare op operands = .ok stmt ↔ Applies (.operator op) operands stmt := by
  rw [operatorStmtWith_eq, ← callStmt_eq_ok_iff]
  rfl

/-! ### What expressions are made of -/

mutual

/-- The names, texts and numbers that an expression is made of, in the order of its text. -/
def Expr.leaves : Expr → List Expr
  | .ident name => [.ident name]
  | .string s => [.string s]
  | .int n => [.int n]
  | .call callee args => callee.leaves ++ Expr.leavesOf args
  | .member receiver _ => receiver.leaves
  | .template base _ => base.leaves
  | .binary _ left right => left.leaves ++ right.leaves
  | .index target position => target.leaves ++ position.leaves
  | .deref e => e.leaves
  | .addressOf e => e.leaves
  | .new _ args => Expr.leavesOf args
  | .delete e => e.leaves
  | .cast _ e => e.leaves
  | .lambda body => body.leaves
  | .brace items => Expr.leavesOf items

/-- What a list of expressions is made of. -/
def Expr.leavesOf : List Expr → List Expr
  | [] => []
  | e :: r => e.leaves ++ Expr.leavesOf r

end

mutual

/-- What a statement is made of. -/
def Stmt.leaves : Stmt → List Expr
  | .declare _ _ _ init => init.leaves
  | .expr e => e.leaves
  | .assign target value => target.leaves ++ value.leaves
  | .ret none => []
  | .ret (some e) => e.leaves
  | .cond test body => test.leaves ++ Stmt.leavesOf body

/-- What a list of statements is made of. -/
def Stmt.leavesOf : List Stmt → List Expr
  | [] => []
  | s :: r => s.leaves ++ Stmt.leavesOf r

end

/-- What the name of a target is made of. -/
def Target.leaves : Target → List Expr
  | .function qualified => [.ident qualified]
  | _ => []

/-- **A target is applied to each operand once, in their order,** and to nothing else. -/
theorem Applies.leaves {target : Target} {operands : List Expr} {stmt : Stmt}
    (h : Applies target operands stmt) :
    stmt.leaves = target.leaves ++ Expr.leavesOf operands := by
  cases h <;> simp [Stmt.leaves, Expr.leaves, Expr.leavesOf, Target.leaves]

/-! ### Reading the arguments -/

/-- `reader<type>(args[i])` -/
def readBy (reader type : String) (i : Nat) : Expr :=
  .call (.template (.ident reader) [type]) [.index (.ident "args") (.int i)]

/-- The declarations that read argument `i`, in the way of its passing, and the operand that it
becomes. -/
inductive ReadsArg (i : Nat) : ArgSpec → List Stmt → Expr → Prop
  | value {type} : ReadsArg i ⟨type, .value⟩
    [.declare type .value ("a" ++ toString i) (readBy "bind::read" type i)]
    (.ident ("a" ++ toString i))
  | reference {type} : ReadsArg i ⟨type, .reference⟩
    [.declare type .reference ("a" ++ toString i) (readBy "bind::deref" type i)]
    (.ident ("a" ++ toString i))
  | pointer {type} : ReadsArg i ⟨type, .pointer⟩
    [.declare type .pointer ("a" ++ toString i) (readBy "bind::pointer" type i)]
    (.ident ("a" ++ toString i))
  | pointerToValue {type} : ReadsArg i ⟨type, .pointerToValue⟩
    [.declare type .value ("s" ++ toString i) (readBy "bind::read" type i),
      .declare type .pointer ("a" ++ toString i) (.addressOf (.ident ("s" ++ toString i)))]
    (.ident ("a" ++ toString i))
  | text {type} : ReadsArg i ⟨type, .text⟩
    [.declare "std::string" .value ("a" ++ toString i) (readBy "bind::read" "std::string" i)]
    (.call (.member (.ident ("a" ++ toString i)) "data") [])

/-- The declarations that read arguments, numbered from `i`, and the operands that they become. -/
inductive ReadsArgs : Nat → List ArgSpec → List Stmt → List Expr → Prop
  | nil {i} : ReadsArgs i [] [] []
  | cons {i a args reading rest e operands} (first : ReadsArg i a reading e)
    (others : ReadsArgs (i + 1) args rest operands) :
    ReadsArgs i (a :: args) (reading ++ rest) (e :: operands)

theorem readsArg_readArg (i : Nat) (a : ArgSpec) : ReadsArg i a (readArg i a) (operand i a) := by
  obtain ⟨type, passing⟩ := a
  cases passing with
  | value => exact .value
  | reference => exact .reference
  | pointer => exact .pointer
  | pointerToValue => exact .pointerToValue
  | text => exact .text

/-- **The arguments are read in order.** -/
theorem readsArgs_indexed (i : Nat) (args : List ArgSpec) :
    ReadsArgs i args (indexed readArg i args).flatten (indexed operand i args) := by
  induction args generalizing i with
  | nil => exact .nil
  | cons a args ih => exact .cons (readsArg_readArg i a) (ih (i + 1))

variable {i : Nat} {a : ArgSpec} {args : List ArgSpec} {reading : List Stmt} {e : Expr}
  {operands : List Expr}

/-- An operand is made of the local of its argument. -/
theorem ReadsArg.leaves (h : ReadsArg i a reading e) : e.leaves = [.ident ("a" ++ toString i)] := by
  cases h <;> rfl

theorem ReadsArgs.leavesOf (h : ReadsArgs i args reading operands) : Expr.leavesOf operands =
    (List.range' i args.length).map fun k => .ident ("a" ++ toString k) := by
  induction h with
  | nil => rfl
  | cons first _ ih =>
    rw [Expr.leavesOf, first.leaves, ih, List.length_cons, List.range'_succ, List.map_cons]
    rfl

/-! ### Declared names -/

/-- The name that a statement declares. -/
def Stmt.declared? : Stmt → Option String
  | .declare _ _ name _ => some name
  | _ => none

theorem Applies.declared? {target : Target} {stmt : Stmt} (h : Applies target operands stmt) :
    stmt.declared? = none := by
  cases h <;> rfl

/-- The names declared for an argument. -/
theorem ReadsArg.declared (h : ReadsArg i a reading e) :
    reading.filterMap Stmt.declared? = ["a" ++ toString i] ∨
      reading.filterMap Stmt.declared? = ["s" ++ toString i, "a" ++ toString i] := by
  cases h with
  | value | reference | pointer | text => exact .inl rfl
  | pointerToValue => exact .inr rfl

theorem numbered_injective {letter : String} {i j : Nat}
    (h : letter ++ toString i = letter ++ toString j) : i = j := by
  rw [String.append_right_inj, Nat.toString_eq_ofList_toDigits,
    Nat.toString_eq_ofList_toDigits] at h
  have hnumber := congrArg (fun ds => Nat.ofDigitChars 10 ds 0) (String.ofList_injective h)
  simpa using hnumber

theorem numbered_ne (i j : Nat) : "s" ++ toString i ≠ "a" ++ toString j := by
  intro h
  have hfirst := congrArg (fun s => s.toList.head?) h
  simp [String.toList_append] at hfirst

/-- A local that belongs to argument `i`. -/
def IsLocal (i : Nat) (name : String) : Prop :=
  name = "s" ++ toString i ∨ name = "a" ++ toString i

theorem ReadsArg.isLocal {name : String} (h : ReadsArg i a reading e)
    (hname : name ∈ reading.filterMap Stmt.declared?) : IsLocal i name := by
  rcases h.declared with hdeclared | hdeclared <;> rw [hdeclared] at hname <;>
    simp at hname <;> simp [IsLocal, hname]

/-- A local belongs to one argument. -/
theorem IsLocal.unique {j : Nat} {name : String} (hi : IsLocal i name) (hj : IsLocal j name) :
    i = j := by
  rcases hi with rfl | rfl <;> rcases hj with h | h
  · exact numbered_injective h
  · exact absurd h (numbered_ne i j)
  · exact absurd h.symm (numbered_ne j i)
  · exact numbered_injective h

/-- The locals of later arguments have higher numbers. -/
theorem ReadsArgs.exists_isLocal {name : String} (h : ReadsArgs i args reading operands)
    (hname : name ∈ reading.filterMap Stmt.declared?) : ∃ k, i ≤ k ∧ IsLocal k name := by
  induction h with
  | nil => exact absurd hname List.not_mem_nil
  | @cons i _ _ _ _ _ _ first _ ih =>
    rw [List.filterMap_append, List.mem_append] at hname
    rcases hname with hname | hname
    · exact ⟨i, Nat.le_refl i, first.isLocal hname⟩
    · obtain ⟨k, hk, hlocal⟩ := ih hname
      exact ⟨k, Nat.le_of_succ_le hk, hlocal⟩

/-- **All declared names are different.** -/
theorem ReadsArgs.nodup_declared (h : ReadsArgs i args reading operands) :
    (reading.filterMap Stmt.declared?).Nodup := by
  induction h with
  | nil => exact List.nodup_nil
  | cons first others ih =>
    rw [List.filterMap_append, List.nodup_append]
    refine ⟨?_, ih, fun name hmem other hother heq => ?_⟩
    · rcases first.declared with hdeclared | hdeclared <;> rw [hdeclared] <;> simp
    · obtain ⟨k, hk, hlocal⟩ := others.exists_isLocal hother
      have hik := (first.isLocal hmem).unique (heq ▸ hlocal)
      omega

/-! ### Wrappers -/

/-- A unit is a wrapper of a call: it reads the arguments into operands, and ends with a
statement. -/
structure Wraps (c : Call) (reading : List Stmt) (operands : List Expr) (stmt : Stmt) (u : Unit) :
    Prop where
  /-- The arguments are read from their slots in order, in the ways of their passings. -/
  reads : ReadsArgs 0 c.args reading operands
  /-- The statement applies the target to them. -/
  applies : Applies c.target operands stmt
  target : ∃ f, u.items[0]? = some (.function f) ∧ f.name = "bind_target" ∧
    f.params = [⟨"const bind_value *", "args"⟩] ∧ f.body = reading ++ [stmt]
  /-- The entry point is told how many arguments there are. -/
  entry : ∃ f, u.items[1]? = some (.function f) ∧ f.name = c.hash ∧
    f.params = [⟨"const bind_value *", "args"⟩, ⟨"size_t", "nargs"⟩, ⟨"bind_value *", "out"⟩] ∧
    f.body = [.ret (some (.call (.ident "bind::invoke")
      [.int c.args.length, .ident "nargs", .ident "out",
        .lambda (.call (.ident "bind_target") [.ident "args"])]))]
  distinct : ((reading ++ [stmt]).filterMap Stmt.declared?).Nodup
  /-- The statement is made of the local of every argument, once and in order, and of nothing
  else. -/
  leaves : stmt.leaves =
    c.target.leaves ++ (List.range c.args.length).map fun i => .ident ("a" ++ toString i)

theorem exists_wraps {c : Call} {u : Unit} (h : wrapper c = .ok u) :
    ∃ reading operands stmt, Wraps c reading operands stmt u := by
  obtain ⟨stmt, hstmt, rfl⟩ := exists_of_map_eq_ok h
  have hreads := readsArgs_indexed 0 c.args
  have happlies := callStmt_eq_ok_iff.1 hstmt
  refine ⟨_, _, stmt, hreads, happlies, ⟨_, rfl, rfl, rfl, rfl⟩, ⟨_, rfl, rfl, rfl, rfl⟩, ?_, ?_⟩
  · rw [List.filterMap_append, List.filterMap_cons, happlies.declared?, List.filterMap_nil,
      List.append_nil]
    exact hreads.nodup_declared
  · rw [happlies.leaves, hreads.leavesOf, List.range_eq_range']

end Source
end Bindery
