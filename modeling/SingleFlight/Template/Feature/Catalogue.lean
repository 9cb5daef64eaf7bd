/-
SingleFlight.Template.Feature.Catalogue — the features of catalogues and indexed kinds.

A catalogue tells what a kind holds, by name. Some kinds take an argument, which
says what they are made of.

* `ofCatalogues` — what the kind of catalogues holds.
* `ofIndexed` — what the kind of kinds with an argument holds.
-/
import SingleFlight.Template.Feature.Operator

namespace SingleFlight.Template.Feature

/-- What the kind of catalogues holds. -/
def ofCatalogues : List Feature :=
  [maker] ++
  operators [
    "__repr__", "__str__", "__getattribute__", "__lt__", "__le__", "__eq__", "__ne__",
    "__gt__", "__ge__", "__iter__", "__or__", "__ror__", "__ior__", "__len__", "__getitem__",
    "__contains__"] ++
  [
    method "get" "" ["D.get(k[,d]) -> D[k] if k in D, else d.  d defaults to None."],
    method "keys" "" ["D.keys() -> a set-like object providing a view on D's keys"],
    method "values" "" ["D.values() -> an object providing a view on D's values"],
    method "items" "" ["D.items() -> a set-like object providing a view on D's items"],
    method "copy" "" ["D.copy() -> a shallow copy of D"],
    kindMethod "__class_getitem__" "" ["See PEP 585"],
    method "__reversed__" "" ["D.__reversed__() -> reverse iterator"],
    about [],
    absent "__hash__"]

/-- What the kind of kinds with an argument holds. -/
def ofIndexed : List Feature :=
  [maker] ++
  operators [
    "__repr__", "__hash__", "__call__", "__getattribute__", "__lt__", "__le__", "__eq__",
    "__ne__", "__gt__", "__ge__", "__iter__", "__or__", "__ror__", "__getitem__"] ++
  [
    method "__mro_entries__" "" [],
    method "__instancecheck__" "" [],
    method "__subclasscheck__" "" [],
    method "__reduce__" "" [],
    method "__dir__" "" [],
    cell "__origin__" [],
    field "__parameters__" ["Type variables in the GenericAlias."],
    field "__typing_unpacked_tuple_args__" [],
    about [
      "Represent a PEP 585 generic type",
      "",
      "E.g. for t = list[int], t.__origin__ is list and t.__args__ is (int,)."]]

end SingleFlight.Template.Feature
