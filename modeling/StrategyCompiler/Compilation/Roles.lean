import StrategyCompiler.Diagnostic
import StrategyCompiler.Graph.Index
/-!
The conditions and actions of a strategy, divided into those that open positions and those that
close them.
-/

set_option autoImplicit false

namespace StrategyCompiler.Compilation

open Diagnostic (Warning)
open StrategyCompiler.Graph (Index Placed Role)

/-- The role of a condition: the one it states, else the one of the first action behind it that has
a role, else the one its own label suggests. -/
def conditionRole? (index : Index) (placed : Placed) : Option Role :=
  let actions := (index.placed (index.dependents placed.position)).filter
    fun dependent => dependent.node.kind == .action
  ((Role.ofConfig? placed.node).or
    (actions.findSome? fun dependent => Role.of? dependent.node)).or
      (Role.ofLabel? placed.node.label)

def conditionsOf (index : Index) (order : List Placed) (role : Role) : List Placed :=
  order.filter fun placed =>
    placed.node.kind == .condition && conditionRole? index placed == some role

def actionsOf (order : List Placed) (role : Role) : List Placed :=
  order.filter fun placed => placed.node.kind == .action && Role.of? placed.node == some role

/-- The actions that are carried out: without conditions of their role there are none. -/
def liveActionsOf (index : Index) (order : List Placed) (role : Role) : List Placed :=
  if (conditionsOf index order role).isEmpty then [] else actionsOf order role

def unassignedWarnings (order : List Placed) : List Warning :=
  (order.filter fun placed => placed.node.kind == .action && (Role.of? placed.node).isNone).map
    fun placed => .unassignedAction placed.node.id placed.node.label

/-- The warnings about actions of a role that has no conditions. -/
def idleWarnings (index : Index) (order : List Placed) (role : Role) : List Warning :=
  if (conditionsOf index order role).isEmpty then
    (actionsOf order role).map fun placed => .actionWithoutConditions placed.node.id role
  else []

def roleWarnings (index : Index) (order : List Placed) : List Warning :=
  unassignedWarnings order ++ idleWarnings index order .entry ++ idleWarnings index order .exit

end StrategyCompiler.Compilation
