import SceneMarkup.Filters.Pattern.Token

namespace SceneMarkup.Filters

/-!
# Faults of scripts
-/

/-- What is wrong with a script. -/
inductive ScriptFault
  | missingCommand
  | unknownCommand (letter : Char)
  | moreAfterCommand
  | strayComma
  | negatedTwice
  | lineZero
  | relativeFirst
  | oneAddressOnly
  | strayClose
  | addressedClose
  | openBlock
  | addressedComment
  | addressedLabel
  | missingLabel
  | openAddress
  | openSubstitution
  | openExchange
  | unequalLengths
  | unknownFlag
  | allTwice
  | printTwice
  | numberTwice
  | numberZero
  | missingText
  | missingName
  | flagsAlone
  | noEarlierPattern
  | missingGroup (number : Nat)
  | controlOfEscape
  | tooNew
  | forbidden
  | pattern (fault : PatternFault)
  deriving Repr, DecidableEq

/-- The wording of a fault. -/
def ScriptFault.message : ScriptFault → String
  | .missingCommand => "missing command"
  | .unknownCommand letter => "unknown command: `" ++ letter.toString ++ "'"
  | .moreAfterCommand => "extra characters after command"
  | .strayComma => "unexpected `,'"
  | .negatedTwice => "multiple `!'s"
  | .lineZero => "invalid usage of line address 0"
  | .relativeFirst => "invalid usage of +N or ~N as first address"
  | .oneAddressOnly => "command only uses one address"
  | .strayClose => "unexpected `\x7d'"
  | .addressedClose => "`\x7d' doesn't want any addresses"
  | .openBlock => "unmatched `\x7b'"
  | .addressedComment => "comments don't accept any addresses"
  | .addressedLabel => ": doesn't want any addresses"
  | .missingLabel => "\":\" lacks a label"
  | .openAddress => "unterminated address regex"
  | .openSubstitution => "unterminated `s' command"
  | .openExchange => "unterminated `y' command"
  | .unequalLengths => "strings for `y' command are different lengths"
  | .unknownFlag => "unknown option to `s'"
  | .allTwice => "multiple `g' options to `s' command"
  | .printTwice => "multiple `p' options to `s' command"
  | .numberTwice => "multiple number options to `s' command"
  | .numberZero => "number option to `s' command may not be zero"
  | .missingText => "expected \\ after `a', `c' or `i'"
  | .missingName => "missing filename in r/R/w/W commands"
  | .flagsAlone => "cannot specify modifiers on empty regexp"
  | .noEarlierPattern => "no previous regular expression"
  | .missingGroup number => "invalid reference \\" ++ toString number ++ " on `s' command's RHS"
  | .controlOfEscape => "recursive escaping after \\c not allowed"
  | .tooNew => "expected newer version of sed"
  | .forbidden => "e/r/w commands disabled in sandbox mode"
  | .pattern fault => fault.message

end SceneMarkup.Filters
