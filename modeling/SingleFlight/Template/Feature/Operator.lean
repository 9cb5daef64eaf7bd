/-
SingleFlight.Template.Feature.Operator — what many kinds of value do alike.

Being compared, added, counted or shown is called by one name wherever it can be
done, and takes the same arguments.

* `operatorTexts` — each operator with its arguments and with what it does.
* `operators` — several operators, as features of a kind.
-/
import SingleFlight.Template.Feature

namespace SingleFlight.Template

/-- The operators by name, with the arguments they take and what they do. -/
def operatorTexts : List (String × String × String) := [
  ("__repr__", "($self, /)", "Return repr(self)."),
  ("__hash__", "($self, /)", "Return hash(self)."),
  ("__str__", "($self, /)", "Return str(self)."),
  ("__getattribute__", "($self, name, /)", "Return getattr(self, name)."),
  ("__lt__", "($self, value, /)", "Return self<value."),
  ("__le__", "($self, value, /)", "Return self<=value."),
  ("__eq__", "($self, value, /)", "Return self==value."),
  ("__ne__", "($self, value, /)", "Return self!=value."),
  ("__gt__", "($self, value, /)", "Return self>value."),
  ("__ge__", "($self, value, /)", "Return self>=value."),
  ("__iter__", "($self, /)", "Implement iter(self)."),
  ("__mod__", "($self, value, /)", "Return self%value."),
  ("__rmod__", "($self, value, /)", "Return value%self."),
  ("__len__", "($self, /)", "Return len(self)."),
  ("__getitem__", "($self, key, /)", "Return self[key]."),
  ("__add__", "($self, value, /)", "Return self+value."),
  ("__mul__", "($self, value, /)", "Return self*value."),
  ("__rmul__", "($self, value, /)", "Return value*self."),
  ("__contains__", "($self, key, /)", "Return key in self."),
  ("__radd__", "($self, value, /)", "Return value+self."),
  ("__sub__", "($self, value, /)", "Return self-value."),
  ("__rsub__", "($self, value, /)", "Return value-self."),
  ("__divmod__", "($self, value, /)", "Return divmod(self, value)."),
  ("__rdivmod__", "($self, value, /)", "Return divmod(value, self)."),
  ("__pow__", "($self, value, mod=None, /)", "Return pow(self, value, mod)."),
  ("__rpow__", "($self, value, mod=None, /)", "Return pow(value, self, mod)."),
  ("__neg__", "($self, /)", "-self"),
  ("__pos__", "($self, /)", "+self"),
  ("__abs__", "($self, /)", "abs(self)"),
  ("__bool__", "($self, /)", "True if self else False"),
  ("__invert__", "($self, /)", "~self"),
  ("__lshift__", "($self, value, /)", "Return self<<value."),
  ("__rlshift__", "($self, value, /)", "Return value<<self."),
  ("__rshift__", "($self, value, /)", "Return self>>value."),
  ("__rrshift__", "($self, value, /)", "Return value>>self."),
  ("__and__", "($self, value, /)", "Return self&value."),
  ("__rand__", "($self, value, /)", "Return value&self."),
  ("__xor__", "($self, value, /)", "Return self^value."),
  ("__rxor__", "($self, value, /)", "Return value^self."),
  ("__or__", "($self, value, /)", "Return self|value."),
  ("__ror__", "($self, value, /)", "Return value|self."),
  ("__int__", "($self, /)", "int(self)"),
  ("__float__", "($self, /)", "float(self)"),
  ("__floordiv__", "($self, value, /)", "Return self//value."),
  ("__rfloordiv__", "($self, value, /)", "Return value//self."),
  ("__truediv__", "($self, value, /)", "Return self/value."),
  ("__rtruediv__", "($self, value, /)", "Return value/self."),
  ("__index__", "($self, /)",
    "Return self converted to an integer, if self is suitable for use as an index into a list."),
  ("__setattr__", "($self, name, value, /)", "Implement setattr(self, name, value)."),
  ("__delattr__", "($self, name, /)", "Implement delattr(self, name)."),
  ("__init__", "($self, /, *args, **kwargs)",
    "Initialize self.  See help(type(self)) for accurate signature."),
  ("__call__", "($self, /, *args, **kwargs)", "Call self as a function."),
  ("__get__", "($self, instance, owner=None, /)",
    "Return an attribute of instance, which is of type owner."),
  ("__set__", "($self, instance, value, /)", "Set an attribute of instance to value."),
  ("__delete__", "($self, instance, /)", "Delete an attribute of instance."),
  ("__ior__", "($self, value, /)", "Return self|=value.")]

/-- The operator of a name. -/
def Feature.operator (name : String) : Feature :=
  match operatorTexts.lookup name with
  | some (signature, about) => .ofText .operator name signature [about]
  | none => .ofText .operator name "" []

/-- Operators by name, as features of a kind. -/
def Feature.operators (names : List String) : List Feature :=
  names.map operator

end SingleFlight.Template
