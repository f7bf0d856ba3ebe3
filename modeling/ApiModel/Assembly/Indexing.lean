import ApiModel.Model.Basic

/-!
# Indexing

The indices of a model are built from its lists: the generated and the external elements and all
that is nested in them. Where two elements have one full name, the one that comes later wins.
Messages are visited from the last root to the first, and nested ones from the last to the first, so
the first message of a name wins.
-/

namespace ApiModel.Model

/-- A message and everything nested in it, later siblings first; the depth bounds the descent. -/
def visitMessage (m : Model) : Nat → MessageRef → List MessageRef
  | 0, _ => []
  | depth + 1, ref => ref :: (m.message ref).messages.reverse.flatMap (m.visitMessage depth)

/-- The messages in the order in which they are indexed. -/
def visitedMessages (m : Model) : List MessageRef :=
  (m.messages ++ m.externalMessages).reverse.flatMap (m.visitMessage m.store.messages.size)

/-- The enumerations in the order in which they are indexed. -/
def visitedEnums (m : Model) : List EnumRef :=
  m.enums ++ m.externalEnums ++ m.visitedMessages.flatMap fun ref => (m.message ref).enums

/-- The methods of the listed services, each with its service. -/
def listedMethods (m : Model) : List (ServiceRef × MethodRef) :=
  m.services.flatMap fun service => (m.service service).methods.map fun method => (service, method)

/-- The index of places under the full names that are found there. -/
def indexBy {ref : Type} (id : ref → String) (refs : List ref) : Index ref :=
  refs.foldl (fun index r => index.insert (id r) r) Index.empty

/-- Tells a method which service lists it. -/
def linkMethod (m : Model) (link : ServiceRef × MethodRef) : Model :=
  m.modifyMethod link.2 fun method => { method with service := some link.1 }

/-- Builds the four indices anew and tells every listed method its service. -/
def buildIndices (m : Model) : Model :=
  let indexed : Model :=
    { m with
      store :=
        { m.store with
          messageById := indexBy (fun ref => (m.message ref).id) m.visitedMessages
          enumById := indexBy (fun ref => (m.enumeration ref).id) m.visitedEnums
          serviceById := indexBy (fun ref => (m.service ref).id) m.services
          methodById := indexBy (fun ref => (m.method ref).id) (m.listedMethods.map Prod.snd) } }
  m.listedMethods.foldl linkMethod indexed

/-- The indexed messages in the order of their full names. -/
def indexedMessages (m : Model) : List MessageRef :=
  m.store.messageById.values

/-- The indexed enumerations in the order of their full names. -/
def indexedEnums (m : Model) : List EnumRef :=
  m.store.enumById.values

/-- The indexed services in the order of their full names. -/
def indexedServices (m : Model) : List ServiceRef :=
  m.store.serviceById.values

/-- The indexed methods in the order of their full names. -/
def indexedMethods (m : Model) : List MethodRef :=
  m.store.methodById.values

end ApiModel.Model
