/-
SingleFlight.Template.Feature.Kinds — the features of kinds, and of several kinds in a row.

* `aboutKinds`, `ofKinds` — what the kind of kinds is about and what it holds.
* `ofRows` — what the kind of rows holds.
-/
import SingleFlight.Template.Feature.Operator

namespace SingleFlight.Template.Feature

/-- What the kind of kinds is about. -/
def aboutKinds : String :=
  "type(object) -> the object's type\n" ++
  "type(name, bases, dict, **kwds) -> a new type"

/-- What the kind of kinds holds. -/
def ofKinds : List Feature :=
  [maker] ++
  operators [
    "__repr__", "__call__", "__getattribute__", "__setattr__", "__delattr__", "__init__",
    "__or__", "__ror__"] ++
  [
    method "mro" "($self, /)" ["Return a type's method resolution order."],
    method "__subclasses__" "($self, /)" ["Return a list of immediate subclasses."],
    kindMethod "__prepare__" "" [
      "__prepare__() -> dict",
      "used to create the namespace for the class statement"],
    method "__instancecheck__" "($self, instance, /)" ["Check if an object is an instance."],
    method "__subclasscheck__" "($self, subclass, /)" ["Check if a class is a subclass."],
    method "__dir__" "($self, /)" ["Specialized __dir__ implementation for types."],
    method "__sizeof__" "($self, /)" ["Return memory consumption of the type object."],
    cell "__basicsize__" [],
    cell "__itemsize__" [],
    cell "__flags__" [],
    cell "__weakrefoffset__" [],
    cell "__base__" [],
    cell "__dictoffset__" [],
    cell "__mro__" [],
    field "__name__" [],
    field "__qualname__" [],
    field "__bases__" [],
    field "__module__" [],
    field "__abstractmethods__" [],
    field "__dict__" [],
    field "__doc__" [],
    field "__text_signature__" [],
    field "__annotations__" []]

/-- What the kind of rows holds. -/
def ofRows : List Feature :=
  [maker] ++
  operators [
    "__repr__", "__hash__", "__getattribute__", "__lt__", "__le__", "__eq__", "__ne__",
    "__gt__", "__ge__", "__iter__", "__len__", "__getitem__", "__add__", "__mul__", "__rmul__",
    "__contains__"] ++
  [
    method "__getnewargs__" "($self, /)" [],
    method "index" "($self, value, start=0, stop=sys.maxsize, /)" [
      "Return first index of value.",
      "",
      "Raises ValueError if the value is not present."],
    method "count" "($self, value, /)" ["Return number of occurrences of value."],
    kindMethod "__class_getitem__" "" ["See PEP 585"],
    about [
      "Built-in immutable sequence.",
      "",
      "If no argument is given, the constructor returns an empty tuple.",
      "If iterable is specified the tuple is initialized from iterable's items.",
      "",
      "If the argument is a tuple, the return value is the same object."]]

end SingleFlight.Template.Feature
