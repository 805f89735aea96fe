import DogBot.Library.Text

/-! # Degraded Markdown

The body of a reply is sent as plain text. Line by line, the marks of headings,
bold text and code are dropped, and a link becomes its label and its address.
-/

namespace DogBot

/-- Rewrite links from left to right. Behind a bracket that opens no link, everything is kept. -/
def replaceMarkdownLinks (rest : List Char) : List Char :=
  match _hlabel : Text.splitOnceChars ['['] rest with
  | none => rest
  | some (before, candidate) =>
    match _hend : Text.splitOnceChars [']', '('] candidate with
    | none => before ++ '[' :: candidate
    | some (label, urlCandidate) =>
      match _hurl : Text.splitOnceChars [')'] urlCandidate with
      | none => before ++ '[' :: candidate
      | some (url, rest) => before ++ label ++ [':', ' '] ++ url ++ replaceMarkdownLinks rest
termination_by rest.length
decreasing_by
  have h₁ := Text.length_after_lt (by decide) _hlabel
  have h₂ := Text.length_after_lt (by decide) _hend
  have h₃ := Text.length_after_lt (by decide) _hurl
  omega

def degradeMarkdownLine (line : String) : String :=
  let line := (Text.stripPrefix "## " line <|> Text.stripPrefix "# " line).getD line
  let line := Text.replaceAll "`" "" (Text.replaceAll "**" "" line)
  String.ofList (replaceMarkdownLinks line.toList)

def degradeMarkdown (input : String) : String :=
  "\n".intercalate ((Text.lines input).map degradeMarkdownLine)

example : degradeMarkdown "# **Done**\n[log](http://x) and [1" = "Done\nlog: http://x and [1" := by
  decide +kernel

end DogBot
