/-
SingleFlight.Template.Feature.Features — the features of features.

A feature can be looked at too, as its kind holds it and as one value has it.

* `ofMethods`, `ofOperators`, `ofFields`, `ofCells`, `ofKindMethods` — what is
  held of features that belong to a kind.
* `ofBoundMethods`, `ofBoundOperators` — what is held of those of one value.
-/
import SingleFlight.Template.Feature.Operator

namespace SingleFlight.Template.Feature

/-- What the kind of methods holds. -/
def ofMethods : List Feature :=
  operators [
    "__repr__", "__call__", "__getattribute__", "__get__"] ++
  [
    method "__reduce__" "" [],
    cell "__objclass__" [],
    cell "__name__" [],
    field "__doc__" [],
    field "__qualname__" [],
    field "__text_signature__" []]

/-- What the kind of operators holds. -/
def ofOperators : List Feature :=
  operators [
    "__repr__", "__call__", "__getattribute__", "__get__"] ++
  [
    method "__reduce__" "" [],
    cell "__objclass__" [],
    cell "__name__" [],
    field "__doc__" [],
    field "__qualname__" [],
    field "__text_signature__" []]

/-- What the kind of facts that are worked out holds. -/
def ofFields : List Feature :=
  operators [
    "__repr__", "__getattribute__", "__get__", "__set__", "__delete__"] ++
  [
    cell "__objclass__" [],
    cell "__name__" [],
    field "__doc__" [],
    field "__qualname__" []]

/-- What the kind of facts that are kept holds. -/
def ofCells : List Feature :=
  operators [
    "__repr__", "__getattribute__", "__get__", "__set__", "__delete__"] ++
  [
    method "__reduce__" "" [],
    cell "__objclass__" [],
    cell "__name__" [],
    field "__doc__" [],
    field "__qualname__" []]

/-- What the kind of methods of kinds holds. -/
def ofKindMethods : List Feature :=
  operators [
    "__repr__", "__call__", "__getattribute__", "__get__"] ++
  [
    cell "__objclass__" [],
    cell "__name__" [],
    field "__doc__" [],
    field "__qualname__" [],
    field "__text_signature__" []]

/-- What the kind of methods of one value holds. -/
def ofBoundMethods : List Feature :=
  operators [
    "__repr__", "__hash__", "__call__", "__getattribute__", "__lt__", "__le__", "__eq__",
    "__ne__", "__gt__", "__ge__"] ++
  [
    method "__reduce__" "" [],
    cell "__module__" [],
    field "__doc__" [],
    field "__name__" [],
    field "__qualname__" [],
    field "__self__" [],
    field "__text_signature__" []]

/-- What the kind of operators of one value holds. -/
def ofBoundOperators : List Feature :=
  operators [
    "__repr__", "__hash__", "__call__", "__getattribute__", "__lt__", "__le__", "__eq__",
    "__ne__", "__gt__", "__ge__"] ++
  [
    method "__reduce__" "" [],
    cell "__self__" [],
    field "__objclass__" [],
    field "__name__" [],
    field "__qualname__" [],
    field "__doc__" [],
    field "__text_signature__" []]

end SingleFlight.Template.Feature
