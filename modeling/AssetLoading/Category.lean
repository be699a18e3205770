/-! # Categories of assets and kinds of contents

  A category is the type tag an asset carries. The contents of an asset are of
  some kind, and each kind belongs to one category. Two kinds share the
  category of textures, so contents are told apart by kind, not by tag.
-/

namespace AssetLoading

/-- The type tag of an asset. -/
inductive Category where
  | none | mesh | tex | shader | material | model | font | sprite | sound | solid | anchor
  | renderList
deriving DecidableEq, Repr, Inhabited

namespace Category

/-- Every category. -/
def all : List Category :=
  [none, mesh, tex, shader, material, model, font, sprite, sound, solid, anchor, renderList]

/-- The short lower-case name, used in logs. -/
def name : Category → String
  | none => "none"
  | mesh => "mesh"
  | tex => "tex"
  | shader => "shader"
  | material => "material"
  | model => "model"
  | font => "font"
  | sprite => "sprite"
  | sound => "sound"
  | solid => "solid"
  | anchor => "anchor"
  | renderList => "render_list"

/-- The diagnostic form. -/
def debug : Category → String
  | none => "None"
  | mesh => "Mesh"
  | tex => "Tex"
  | shader => "Shader"
  | material => "Material"
  | model => "Model"
  | font => "Font"
  | sprite => "Sprite"
  | sound => "Sound"
  | solid => "Solid"
  | anchor => "Anchor"
  | renderList => "RenderList"

/-- The category with a given name. -/
def ofName? (text : String) : Option Category :=
  all.find? fun c => c.name == text

end Category

/-- The kind of an asset's contents. -/
inductive Kind where
  /-- The standard contents of a category. -/
  | standard (category : Category)
  /-- A second kind of texture contents. -/
  | alternateTex
deriving DecidableEq, Repr, Inhabited

namespace Kind

/-- The category that assets of this kind carry. -/
def category : Kind → Category
  | standard c => c
  | alternateTex => .tex

/-- The kind with a given name. -/
def ofName? (text : String) : Option Kind :=
  if text = "tex2" then some alternateTex else (Category.ofName? text).map standard

end Kind

end AssetLoading
