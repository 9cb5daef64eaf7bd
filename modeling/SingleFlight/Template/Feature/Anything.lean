/-
SingleFlight.Template.Feature.Anything — the features of every value.

* `ofAnything` — what every value has.
* `ofNothing` — what the value that stands for nothing has besides.
-/
import SingleFlight.Template.Feature.Operator

namespace SingleFlight.Template.Feature

/-- What every value has. -/
def ofAnything : List Feature :=
  [maker] ++
  operators [
    "__repr__", "__hash__", "__str__", "__getattribute__", "__setattr__", "__delattr__",
    "__lt__", "__le__", "__eq__", "__ne__", "__gt__", "__ge__", "__init__"] ++
  [
    method "__reduce_ex__" "($self, protocol, /)" ["Helper for pickle."],
    method "__reduce__" "($self, /)" ["Helper for pickle."],
    method "__getstate__" "($self, /)" ["Helper for pickle."],
    kindMethod "__subclasshook__" "" [
      "Abstract classes can override this to customize issubclass().",
      "",
      "This is invoked early on by abc.ABCMeta.__subclasscheck__().",
      "It should return True, False or NotImplemented.  If it returns",
      "NotImplemented, the normal algorithm is used.  Otherwise, it",
      "overrides the normal algorithm (and the outcome is cached).",
      ""],
    kindMethod "__init_subclass__" "" [
      "This method is called when a class is subclassed.",
      "",
      "The default implementation does nothing. It may be",
      "overridden to extend subclasses.",
      ""],
    method "__format__" "($self, format_spec, /)" ["Default object formatter."],
    method "__sizeof__" "($self, /)" ["Size of object in memory, in bytes."],
    method "__dir__" "($self, /)" ["Default dir() implementation."],
    field "__class__" ["the object's class"],
    about [
      "The base class of the class hierarchy.",
      "",
      "When called, it accepts no arguments and returns a new featureless",
      "instance that has no instance attributes and cannot be given any.",
      ""]]

/-- What the value that stands for nothing has besides. -/
def ofNothing : List Feature :=
  [maker] ++
  operators [
    "__repr__", "__bool__"] ++
  [about []]

end SingleFlight.Template.Feature
