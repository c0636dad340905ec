import Tagtext.Registrations
import Tagtext.Text.Case
import Tagtext.Text.Digits

/-!
# Built-in tags

`bold`, `italic` and `upper` set text off; `heading` numbers headings and records
them in the context, and `toc` lists the ones recorded so far.

The context holds the number of headings under `heading_count` and the headings
themselves, in order, under `headings`.
-/

namespace Tagtext

namespace Builtins

/-- A value that is there and not empty, else another one. -/
def nonEmptyOr (value : Option Text) (other : Text) : Text :=
  match value with
  | some (c :: r) => c :: r
  | _ => other

/-- The argument `text`, or the first nameless one, else the content. -/
def textOr (args : Arguments) (content : Text) : Text :=
  nonEmptyOr (args.namedOrAt? "text".toList 0) content

/-- A handler that only looks at its text. -/
def ofText (f : Text → Text) : Handler :=
  .immediate fun args content context => (.ok (f (textOr args content)), context)

/-- The level of a heading: a number from one to six. -/
def headingLevel? (t : Text) : Option Nat := (unsigned? t).filter fun n => 1 ≤ n && n ≤ 6

/-- The key of the number of headings. -/
def countKey : Text := "heading_count".toList

/-- The key of the list of headings. -/
def listKey : Text := "headings".toList

/-- Numbers a heading, records it and writes it. -/
def heading (args : Arguments) (content : Text) (context : Context) :
    Except HandlerError Text × Context :=
  let level := (args.namedOrAt? "level".toList 0).getD "2".toList
  match headingLevel? level with
  | none => (.error (.message ("invalid heading level '".toList ++ level ++ ['\''])), context)
  | some n =>
    let text := nonEmptyOr (args.named? "text".toList) content
    let context := context.increment countKey
    let id := 'h' :: signedDecimal (context.count countKey)
    let entry := Json.ofEntries
      [("id".toList, .string id), ("level".toList, .nat n), ("text".toList, .string text)]
    let tag := 'h' :: decimal n
    (.ok ('<' :: tag ++ " id=\"".toList ++ id ++ "\">".toList ++ text ++ "</".toList ++ tag ++ ['>']),
      context.push listKey entry)

/-- The string member of a recorded heading. -/
def memberText (name : Text) (entry : Json) : Text := ((entry.member? name).bind Json.text?).getD []

/-- One line of the table of contents. -/
def tocItem (entry : Json) : Text :=
  "<li><a href=\"#".toList ++ memberText "id".toList entry ++ "\">".toList ++
    memberText "text".toList entry ++ "</a></li>".toList

/-- Lists the recorded headings. -/
def toc (_ : Arguments) (_ : Text) (context : Context) : Except HandlerError Text × Context :=
  (.ok ("<ul class=\"toc\">".toList ++ (context.list listKey).flatMap tocItem ++ "</ul>".toList),
    context)

/-- The category of tags that write HTML. -/
def html : Text := "HTML Content".toList

/-- All built-in tags. -/
def all : Registrations :=
  Registrations.empty
    |>.add "bold".toList (ofText fun t => "<b>".toList ++ t ++ "</b>".toList)
      { hint := some "Add bold formatting with a shortcode.".toList
        usage := some "[bold 'your bold content here']".toList
        snippet := some "[bold ]".toList
        categories := [html, "Content Item".toList] }
    |>.add "italic".toList (ofText fun t => "<em>".toList ++ t ++ "</em>".toList)
      { hint := some "Add italic formatting.".toList
        categories := [html] }
    |>.add "upper".toList (ofText toUpper)
      { hint := some "Uppercase the content.".toList }
    |>.add "heading".toList (.immediate heading)
      { hint := some "A section heading, recorded for [toc].".toList
        usage := some "[heading level=2]Title[/heading]".toList
        categories := [html] }
    |>.add "toc".toList (.immediate toc)
      { hint := some "List the headings that precede it.".toList
        snippet := some "[toc/]".toList
        categories := [html] }

end Builtins

end Tagtext
