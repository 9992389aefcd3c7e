/-
**Values that should be tokens.**

A scan looks at texts: whether they are fixed colours, spacings or fonts, whether they look like the
name of a token, and whether a file looks like one with elements at all.

Main definitions

* `isFixedColour`, `isFixedSpacing`, `isFixedValue` — values that a token should give;
* `looksLikeToken`, `namesToken` — names of tokens;
* `isTokenProp` — the props that take tokens;
* `hasElements` — the files that are looked at.
-/
import DesignRegistry.Text.Casing
import DesignRegistry.Text.Shape

namespace DesignRegistry

/-- Whether a value is a fixed colour. -/
def isFixedColour (value : String) : Bool :=
  let s := value.toList
  isHexColour 3 8 s || isColourFunction "rgb".toList s || isColourFunction "hsl".toList s

/-- Whether a value is a fixed spacing. -/
def isFixedSpacing (value : String) : Bool := isLength value.toList

/-- Whether a value is a fixed size or weight of a font. -/
def isFixedFont (value : String) : Bool :=
  let s := value.toList
  isMeasure "px".toList s || isWholly "bold".toList s || isWholly "normal".toList s
    || isWholeNumber s

/-- Whether a token should stand for a value. -/
def isFixedValue (value : String) : Bool :=
  isFixedColour value || isFixedSpacing value || isFixedFont value

/-- Whether a value looks like the name of a token. -/
def looksLikeToken (value : String) : Bool :=
  value.toList.contains '.' || value.toList.contains '-'
    || isNameOf isAsciiLetter isWord value.toList

/-- Whether a value names one of the tokens, in full or in part. -/
def namesToken (value : String) (names : List String) : Bool :=
  names.any fun n => Text.contains n value

/-- What the names of props that take tokens contain, in small letters. -/
def tokenPropParts : List String :=
  ["color", "spacing", "margin", "padding", "gap", "fontsize", "fontweight", "lineheight",
    "borderradius", "boxshadow", "opacity"]

/-- Whether a prop takes a token; capitals do not count. -/
def isTokenProp (name : String) : Bool := tokenPropParts.any (Text.contains (lowerAscii name))

/-- Whether a file looks like one with elements. -/
def hasElements (text : String) : Bool :=
  ["import React", "from 'react'", "from \"react\""].any (Text.contains text)
    || (text.toList.contains '<' && text.toList.contains '>')

end DesignRegistry
