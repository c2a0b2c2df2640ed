import ObjectMapping.Catalog.Standard
import ObjectMapping.Rules.RuleBook

/-! # The standard rules

The rules that hold when no rules file says otherwise. -/

namespace ObjectMapping

namespace RuleBook

/-- The types whose relationships another system keeps. -/
def externallyManaged : List TypeName := [⟨"Risk"⟩, ⟨"Threat"⟩]

/-- The types whose objects can be frozen. -/
def frozenTypes : List TypeName := Catalog.governanceTypes ++ Catalog.scopeTypes

/-- The types to which related objects are mapped. -/
def relatedTypes : List TypeName :=
  frozenTypes ++ [⟨"Program"⟩, ⟨"Issue"⟩, ⟨"Document"⟩, ⟨"Workflow"⟩]

/-- The mixin of the rules that related objects share. -/
def relatedObject : TypeName := ⟨"related_object"⟩

/-- Objects that can be frozen reach audits and assessments only through snapshots. -/
def auditScoped : Transform :=
  .ofEdits "audit_scoped"
    [.insert .indirect ⟨"Audit"⟩, .insert .indirect ⟨"Assessment"⟩, .insert .indirect ⟨"Issue"⟩,
     .remove .map ⟨"Audit"⟩, .remove .unmap ⟨"Audit"⟩]

/-- A declaration that lists the same types to map to and to unmap from. -/
def mapping (types : List TypeName) (d : Declaration := .empty) : Declaration :=
  (d.listing .map types).listing .unmap types

/-- The declaration of a type whose objects can be frozen. -/
def frozenDeclaration (name : TypeName) : Declaration :=
  let d := (Declaration.empty.mixin (.named relatedObject)).mixin (.transform auditScoped)
  let d := if name = ⟨"Control"⟩ then mapping [⟨"Control"⟩] d else d
  if name ∈ externallyManaged then d else d.external externallyManaged

/-- The standard declarations. -/
def standardDeclarations : List (TypeName × Declaration) :=
  let related := Declaration.empty.mixin (.named relatedObject)
  [(relatedObject, mapping relatedTypes),
   (⟨"Program"⟩,
     ((mapping [⟨"Program"⟩] related).listing .create [⟨"Audit"⟩]).withMega true),
   (⟨"Audit"⟩,
     (((Declaration.empty.listing .map (frozenTypes ++ [⟨"Issue"⟩])).listing .unmap
       [⟨"Issue"⟩]).listing .create
         [⟨"Assessment"⟩, ⟨"AssessmentTemplate"⟩, ⟨"Issue"⟩]).listing .indirect [⟨"Program"⟩]),
   (⟨"Assessment"⟩,
     (mapping (frozenTypes ++ [⟨"Issue"⟩, ⟨"Evidence"⟩])).listing .indirect [⟨"Audit"⟩]),
   (⟨"AssessmentTemplate"⟩, Declaration.empty.listing .indirect [⟨"Audit"⟩]),
   (⟨"Issue"⟩, mapping [⟨"Audit"⟩, ⟨"Assessment"⟩] related),
   (⟨"Workflow"⟩, mapping frozenTypes),
   (⟨"Document"⟩, related),
   (⟨"Evidence"⟩, Declaration.empty.listing .indirect [⟨"Assessment"⟩, ⟨"Audit"⟩]),
   (⟨"Person"⟩, Declaration.empty.listing .indirect relatedTypes)] ++
  frozenTypes.map fun name => (name, frozenDeclaration name)

/-- The pairs that the standard rules forbid. -/
def standardForbidden : Forbidden where
  oneWay := [(⟨"Issue"⟩, ⟨"Audit"⟩)]
  twoWay := [(⟨"Audit"⟩, ⟨"Program"⟩)]

/-- **The standard rules.** -/
def standard : RuleBook := ofDeclarations standardDeclarations standardForbidden

end RuleBook

end ObjectMapping
