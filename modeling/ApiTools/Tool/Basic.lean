import ApiTools.Json.Value

/-!
# Tools

A tool is one operation of a document, ready to be offered to a caller: how it is identified and
described, which parameters it takes and where each of them goes, and whether it takes a body.
-/

namespace ApiTools

/-- The places of a request that a parameter can fill; a parameter with any other location
fills none. -/
def Location.path : Text := "path"

@[inherit_doc Location.path]
def Location.query : Text := "query"

@[inherit_doc Location.path]
def Location.header : Text := "header"

/-- The types that a parameter's value can have. -/
def primitiveTypes : List Text := ["string", "integer", "number", "boolean"]

/-- A parameter of a tool. -/
structure Parameter where
  /-- The name in the request. -/
  name : Text
  /-- The name with everything but letters, digits and underscores replaced. -/
  sanitizedName : Text
  location : Text
  required : Bool := false
  primitiveType : Text := "string"
  /-- The texts that the parameter is restricted to. -/
  enumValues : Option (List Text) := none
  description : Option Text := none
deriving DecidableEq

/-- A tool. -/
structure Tool where
  id : Text
  description : Text
  path : Text
  method : Text
  parameters : List Parameter := []
  hasBody : Bool := false
  bodyRequired : Bool := false
  bodyDescription : Option Text := none
deriving DecidableEq

/-- The parameters of a tool that fill one of some places, in order. -/
def Tool.parametersIn (tool : Tool) (locations : List Text) : List Parameter :=
  tool.parameters.filter fun p ↦ p.location ∈ locations

/-- The name of the operation behind a tool in reports. -/
def Tool.operation (tool : Tool) : Text := tool.method ++ " " ++ tool.path

end ApiTools
