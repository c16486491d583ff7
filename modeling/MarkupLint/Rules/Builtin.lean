import MarkupLint.Rules.Indent

/-!
# Built-in rules

The rules that are always known. Beside the one for indentation they are: style sheets belong into
files of their own, so that each opening `style` tag is reported; and the element names of opening
and closing tags must not contain ASCII capitals.
-/

namespace MarkupLint.Rules

open Lint Markup

/-! ## No style elements -/

/-- The name of the elements that are reported. -/
def styleName : List Char := ['s', 't', 'y', 'l', 'e']

def opensStyle (e : Event) : Bool := e.tagName.any fun name => Text.sameIgnoringCase name styleName

def styleDisabledId : RuleId := ⟨"style-disabled", by decide⟩

def styleListener : Listener where
  kind := .tagStart
  hear event rule :=
    if opensStyle event then
      [⟨.warning, "The <style> tag cannot be used.", event.position, rule, event.raw⟩]
    else []

/-- Style elements are not allowed. -/
def styleDisabled : Rule where
  id := styleDisabledId
  description := "<style> tags cannot be used."
  optionsHint := "true"
  activate options :=
    match options.expectSwitch styleDisabledId with
    | .error e => { listeners := [], outcome := .error e }
    | .ok _ => { listeners := [styleListener], outcome := .ok () }

/-! ## Lower-case element names -/

def hasCapital (name : List Char) : Bool := name.any Char.isUpper

def tagNameLowercaseId : RuleId := ⟨"tagname-lowercase", by decide⟩

def lowercaseMessage (name : List Char) : String :=
  "The html element name of [ " ++ String.ofList name ++ " ] must be in lowercase."

/-- Reports a tag whose name contains a capital. -/
def lowercaseListener (kind : EventKind) : Listener where
  kind := kind
  hear event rule :=
    match event.tagName with
    | none => []
    | some name =>
      if hasCapital name then
        [⟨.warning, lowercaseMessage name, event.position, rule, event.raw⟩]
      else []

/-- Element names are written in lower case. -/
def tagNameLowercase : Rule where
  id := tagNameLowercaseId
  description := "Tag names must be lowercase."
  optionsHint := "true"
  activate options :=
    match options.expectSwitch tagNameLowercaseId with
    | .error e => { listeners := [], outcome := .error e }
    | .ok _ =>
      { listeners := [lowercaseListener .tagStart, lowercaseListener .tagEnd]
        outcome := .ok () }

/-! ## All of them -/

def builtin : List Rule := [indent, styleDisabled, tagNameLowercase]

def builtinRegistry : Registry := .ofRules builtin

end MarkupLint.Rules
