import DocSelect.Expr.Basic

/-!
# Tests on every part

Whether a test holds on an expression and on all the expressions in it.
-/
namespace DocSelect

namespace Expr

mutual

def all (test : Expr → Bool) : Expr → Bool
  | float x => test (float x)
  | integer i => test (integer i)
  | string s => test (string s)
  | boolean b => test (boolean b)
  | null => test null
  | regex p => test (regex p)
  | property name => test (property name)
  | index key => test (index key) && all test key
  | range start stop => test (range start stop) && allOption test start && allOption test stop
  | var name => test (var name)
  | binary op left right => test (binary op left right) && all test left && all test right
  | not operand => test (not operand) && all test operand
  | assign target op value => test (assign target op value) && all test target && all test value
  | call function arguments => test (call function arguments) && allList test arguments
  | object entries => test (object entries) && allEntries test entries
  | array items => test (array items) && allList test items
  | chain steps => test (chain steps) && allList test steps
  | spread => test spread
  | group inner => test (group inner) && all test inner
  | conditional condition consequence alternative =>
    test (conditional condition consequence alternative) && all test condition &&
      all test consequence && allOption test alternative
  | branch results => test (branch results) && allList test results
  | map step => test (map step) && all test step
  | each step => test (each step) && all test step
  | filter predicate => test (filter predicate) && all test predicate
  | search predicate => test (search predicate) && all test predicate
  | sortBy key direction => test (sortBy key direction) && all test key
  | descend target => test (descend target)

def allList (test : Expr → Bool) : List Expr → Bool
  | [] => true
  | e :: es => all test e && allList test es

def allOption (test : Expr → Bool) : Option Expr → Bool
  | none => true
  | some e => all test e

def allEntry (test : Expr → Bool) : ObjectEntry → Bool
  | .spread source => allOption test source
  | .pair key value => all test key && all test value

def allEntries (test : Expr → Bool) : List ObjectEntry → Bool
  | [] => true
  | e :: es => allEntry test e && allEntries test es

end

mutual

theorem all_of_forall {test : Expr → Bool} (h : ∀ e, test e = true) :
    (e : Expr) → e.all test = true
  | float _ | integer _ | string _ | boolean _ | null | regex _ | property _ | var _ | spread
  | descend _ => by simp [all, h]
  | index e | not e | group e | map e | each e | filter e | search e | sortBy e _ => by
    simp [all, h, all_of_forall h e]
  | binary _ a b | assign a _ b => by simp [all, h, all_of_forall h a, all_of_forall h b]
  | call _ es | array es | chain es | branch es => by simp [all, h, allList_of_forall h es]
  | object entries => by simp [all, h, allEntries_of_forall h entries]
  | range a b => by simp [all, h, allOption_of_forall h a, allOption_of_forall h b]
  | conditional a b c => by
    simp [all, h, all_of_forall h a, all_of_forall h b, allOption_of_forall h c]

theorem allList_of_forall {test : Expr → Bool} (h : ∀ e, test e = true) :
    (es : List Expr) → allList test es = true
  | [] => rfl
  | e :: es => by simp [allList, all_of_forall h e, allList_of_forall h es]

theorem allOption_of_forall {test : Expr → Bool} (h : ∀ e, test e = true) :
    (e : Option Expr) → allOption test e = true
  | none => rfl
  | some e => all_of_forall h e

theorem allEntries_of_forall {test : Expr → Bool} (h : ∀ e, test e = true) :
    (es : List ObjectEntry) → allEntries test es = true
  | [] => rfl
  | .spread source :: es => by
    simp [allEntries, allEntry, allOption_of_forall h source, allEntries_of_forall h es]
  | .pair key value :: es => by
    simp [allEntries, allEntry, all_of_forall h key, all_of_forall h value,
      allEntries_of_forall h es]

end

theorem allList_iff {test : Expr → Bool} {es : List Expr} :
    allList test es = true ↔ ∀ e ∈ es, e.all test = true := by
  induction es with
  | nil => simp [allList]
  | cons e es ih => simp [allList, ih]

def isAssign : Expr → Bool
  | assign .. => true
  | _ => false

def assignFree (e : Expr) : Bool := e.all fun part => !part.isAssign

/-- Without spreads of the subject; the entries of an object may be taken from another one. -/
def spreadFree (e : Expr) : Bool := e.all fun part => !part.isSpread

def isCallOf (name : String) : Expr → Bool
  | call function _ => function == name
  | _ => false

/-- Without calls of the function that marks its subject. -/
def ignoreFree (e : Expr) : Bool := e.all fun part => !part.isCallOf "ignore"

end Expr

end DocSelect
