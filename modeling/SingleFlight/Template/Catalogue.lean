/-
SingleFlight.Template.Catalogue — the features of every kind.

* `Kind.features` — what a kind holds itself, in order.
* `Kind.feature?` — the feature of a name, that of the nearest kind first.
-/
import SingleFlight.Template.Feature.Anything
import SingleFlight.Template.Feature.Catalogue
import SingleFlight.Template.Feature.Features
import SingleFlight.Template.Feature.Kinds
import SingleFlight.Template.Feature.Number
import SingleFlight.Template.Feature.Text

namespace SingleFlight.Template.Kind

/-- What a kind holds itself, in order. -/
def features : Kind → List Feature
  | text => Feature.ofTexts
  | number => Feature.ofNumbers
  | ofKinds => Feature.ofKinds
  | anything => Feature.ofAnything
  | several => Feature.ofRows
  | nothing => Feature.ofNothing
  | boundMethod => Feature.ofBoundMethods
  | boundOperator => Feature.ofBoundOperators
  | method => Feature.ofMethods
  | operator => Feature.ofOperators
  | field => Feature.ofFields
  | cell => Feature.ofCells
  | kindMethod => Feature.ofKindMethods
  | catalogue => Feature.ofCatalogues
  | indexed => Feature.ofIndexed

/-- What a kind holds itself under a name. -/
def own? (k : Kind) (name : String) : Option Feature :=
  k.features.find? (·.name == name)

/-- The feature of a name that values of a kind have, and the kind that holds it. -/
def feature? (k : Kind) (name : String) : Option (Kind × Feature) :=
  k.line.findSome? fun owner => (owner.own? name).map (owner, ·)

end SingleFlight.Template.Kind
