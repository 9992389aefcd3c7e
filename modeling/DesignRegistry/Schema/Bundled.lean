/-
**The schemas of the registry's documents.**

Four kinds of document have a schema of their own: a component, a registry of components (the
manifest), a theme of tokens and a build configuration.  A definition that several of them use is
written once.

Main definitions

* `Schema.component`, `Schema.manifest`, `Schema.theme`, `Schema.config` — the schemas.
-/
import DesignRegistry.Json.Basic

namespace DesignRegistry

namespace Schema

open Json

/-- A definition of a property; only a text may list its values. -/
def propDef : Json :=
  .obj
    [("type", .str "object"),
     ("required", .arr [.str "type"]),
     ("properties", .obj
         [("type", .obj
              [("type", .str "string"),
               ("enum", .arr
                   [.str "string", .str "number", .str "boolean", .str "object", .str "array",
                    .str "function", .str "element", .str "node"])]),
          ("required", .obj [("type", .str "boolean")]),
          ("description", .obj [("type", .str "string")]),
          ("values", .obj [("type", .str "array"), ("items", .obj [("type", .str "string")])])]),
     ("if", .obj [("required", .arr [.str "values"])]),
     ("then", .obj [("properties", .obj [("type", .obj [("const", .str "string")])])])]

/-- A definition of a property that carries its own name. -/
def listedPropDef : Json :=
  .obj
    [("allOf", .arr [.obj [("$ref", .str "#/definitions/propDef")]]),
     ("required", .arr [.str "name"]),
     ("properties", .obj [("name", .obj [("type", .str "string"), ("minLength", .int 1)])])]

/-- Names with versions. -/
def dependencyMap : Json :=
  .obj
    [("type", .str "object"),
     ("additionalProperties", .obj [("type", .str "string")])]

/-- A tree of tokens. -/
def tokenTree : Json :=
  .obj
    [("type", .str "object"),
     ("additionalProperties", .obj [("$ref", .str "#/definitions/tokenNode")])]

/-- A node of a tree of tokens: a leaf if it has a value, a tree otherwise. -/
def tokenNode : Json :=
  .obj
    [("type", .str "object"),
     ("if", .obj [("required", .arr [.str "value"])]),
     ("then", .obj [("$ref", .str "#/definitions/tokenLeaf")]),
     ("else", .obj [("additionalProperties", .obj [("$ref", .str "#/definitions/tokenNode")])])]

/-- A token with its value. -/
def tokenLeaf : Json :=
  .obj
    [("type", .str "object"),
     ("required", .arr [.str "value"]),
     ("properties", .obj
         [("value", .obj [("type", .arr [.str "string", .str "number"])]),
          ("type", .obj [("type", .str "string")]),
          ("category", .obj [("type", .str "string")]),
          ("description", .obj [("type", .str "string")])])]

/-- The schema of a component. -/
def component : Json :=
  .obj
    [("type", .str "object"),
     ("required", .arr [.str "name"]),
     ("properties", .obj
         [("name", .obj [("type", .str "string"), ("minLength", .int 1)]),
          ("description", .obj [("type", .str "string")]),
          ("props", .obj
              [("type", .arr [.str "object", .str "array"]),
               ("additionalProperties", .obj [("$ref", .str "#/definitions/propDef")]),
               ("items", .obj [("$ref", .str "#/definitions/listedPropDef")])]),
          ("variants", .obj
              [("type", .str "object"),
               ("additionalProperties", .obj
                   [("type", .str "object"),
                    ("additionalProperties", .obj [("type", .str "string")])])]),
          ("examples", .obj [("type", .str "array"), ("items", .obj [("type", .str "string")])]),
          ("peerDependencies", .obj [("$ref", .str "#/definitions/dependencyMap")]),
          ("dependencies", .obj [("$ref", .str "#/definitions/dependencyMap")]),
          ("tokens", .obj
              [("type", .str "object"),
               ("additionalProperties", .obj [("$ref", .str "#/definitions/tokenValue")])])]),
     ("definitions", .obj
         [("propDef", propDef),
          ("listedPropDef", listedPropDef),
          ("dependencyMap", dependencyMap),
          ("tokenValue", .obj [("type", .arr [.str "string", .str "number", .str "object"])])])]

/-- The schema of a registry of components. -/
def manifest : Json :=
  .obj
    [("type", .str "object"),
     ("required", .arr [.str "name", .str "version", .str "components"]),
     ("properties", .obj
         [("name", .obj [("type", .str "string"), ("minLength", .int 1)]),
          ("version", .obj [("type", .str "string"), ("pattern", .str "^\\d+\\.\\d+\\.\\d+")]),
          ("description", .obj [("type", .str "string")]),
          ("components", .obj
              [("type", .str "array"),
               ("items", .obj [("$ref", .str "#/definitions/component")])]),
          ("tokens", .obj [("$ref", .str "#/definitions/tokenTree")]),
          ("metadata", .obj [("type", .str "object")]),
          ("lastModified", .obj [("type", .str "string"), ("format", .str "date-time")])]),
     ("definitions", .obj
         [("component", .obj
              [("type", .str "object"),
               ("required", .arr [.str "name"]),
               ("properties", .obj
                   [("name", .obj [("type", .str "string"), ("minLength", .int 1)]),
                    ("description", .obj [("type", .str "string")]),
                    ("props", .obj
                        [("type", .arr [.str "object", .str "array"]),
                         ("additionalProperties", .obj [("$ref", .str "#/definitions/propDef")]),
                         ("items", .obj [("$ref", .str "#/definitions/listedPropDef")])]),
                    ("variants", .obj
                        [("type", .str "object"),
                         ("additionalProperties", .obj
                             [("type", .str "object"),
                              ("additionalProperties", .obj [("type", .str "string")])])]),
                    ("examples", .obj
                        [("type", .str "array"),
                         ("items", .obj [("type", .str "string")])]),
                    ("peerDependencies", .obj [("$ref", .str "#/definitions/dependencyMap")]),
                    ("dependencies", .obj [("$ref", .str "#/definitions/dependencyMap")]),
                    ("tokens", .obj
                        [("type", .str "object"),
                         ("additionalProperties", .obj
                             [("type", .arr [.str "string", .str "number", .str "object"])])])])]),
          ("propDef", propDef),
          ("listedPropDef", listedPropDef),
          ("dependencyMap", dependencyMap),
          ("tokenTree", tokenTree),
          ("tokenNode", tokenNode),
          ("tokenLeaf", tokenLeaf)])]

/-- The schema of a tree of tokens. -/
def theme : Json :=
  .obj
    [("$ref", .str "#/definitions/tokenTree"),
     ("definitions", .obj
         [("tokenTree", tokenTree),
          ("tokenNode", tokenNode),
          ("tokenLeaf", tokenLeaf)])]

/-- The schema of a build configuration. -/
def config : Json :=
  .obj
    [("type", .str "object"),
     ("required", .arr [.str "registryName"]),
     ("properties", .obj
         [("registryName", .obj [("type", .str "string"), ("minLength", .int 1)]),
          ("registryVersion", .obj [("type", .str "string"), ("pattern", .str "^\\d+\\.\\d+\\.\\d+")]),
          ("sources", .obj [("type", .str "array"), ("items", .obj [("type", .str "string")])]),
          ("include", .obj [("type", .str "array"), ("items", .obj [("type", .str "string")])]),
          ("exclude", .obj [("type", .str "array"), ("items", .obj [("type", .str "string")])]),
          ("outputDir", .obj [("type", .str "string")]),
          ("adaptor", .obj [("type", .str "string")]),
          ("tokens", .obj
              [("type", .str "object"),
               ("properties", .obj
                   [("sources", .obj
                        [("type", .str "array"),
                         ("items", .obj [("type", .str "string")])])])])])]

end Schema

end DesignRegistry
