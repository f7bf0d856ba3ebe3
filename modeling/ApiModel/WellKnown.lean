import ApiModel.Model.Basic

/-!
# Well-known types

Every format may name the types of one common package without defining them. They are added to a
model as external elements, so that their names resolve.
-/

namespace ApiModel.WellKnown

/-- The package of the well-known types. -/
def package : String := "google.protobuf"

/-- The full name of a well-known type. -/
def idOf (name : String) : String := "." ++ package ++ "." ++ name

/-- The full name of the message without fields. -/
def emptyId : String := ".google.protobuf.Empty"

/-- The full name of a point in time. -/
def timestampId : String := ".google.protobuf.Timestamp"

/-- The full name of a span of time. -/
def durationId : String := ".google.protobuf.Duration"

/-- The full name of a set of field paths. -/
def fieldMaskId : String := ".google.protobuf.FieldMask"

/-- The full name of a message of any type. -/
def anyId : String := ".google.protobuf.Any"

/-- The names of the well-known messages. -/
def messageNames : List String :=
  ["Any", "BoolValue", "BytesValue", "DoubleValue", "Duration", "Empty", "FieldMask", "FloatValue",
    "Int32Value", "Int64Value", "ListValue", "StringValue", "Struct", "Timestamp", "UInt32Value",
    "UInt64Value", "Value"]

/-- The well-known enumeration. -/
def nullValue : Enumeration :=
  { name := "NullValue"
    id := idOf "NullValue"
    package := package
    values := [{ name := "NULL_VALUE", id := idOf "NullValue" ++ ".NULL_VALUE", number := 0 }] }

/-- Adds an external message, unless the store has one of its full name. -/
def registerMessage (m : Model) (name : String) : Model :=
  if m.store.messages.any fun element => element.id == idOf name then m
  else
    let added := m.addMessage { name := name, id := idOf name, package := package }
    { added.model with externalMessages := added.model.externalMessages ++ [added.ref] }

/-- Adds the external enumeration, unless the store has one of its full name. -/
def registerEnum (m : Model) : Model :=
  if m.store.enums.any fun element => element.id == nullValue.id then m
  else
    let added := m.addEnum nullValue
    { added.model with externalEnums := added.model.externalEnums ++ [added.ref] }

/-- Adds every well-known type that the store does not have. -/
def register (m : Model) : Model :=
  registerEnum (messageNames.foldl registerMessage m)

end ApiModel.WellKnown
