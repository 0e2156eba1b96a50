import Mathlib.Data.Rat.Defs
import Mathlib.Algebra.Order.Ring.Rat
import MintBot.Library.IntegerText

/-!
# The commands of the bot

An update is a message or a tap on a button.  Its text starts with a command, and the tier
of the command says what it may do and how it is handled.
-/

namespace MintBot

/-- What the bot is sent: `update_id` is the number that was decoded from the answer. -/
structure TelegramUpdate where
  updateId : ℚ
  callbackData : Option String := none
  messageText : Option String := none
  deriving DecidableEq

inductive Tier
  | read
  | change
  | stop
  | start
  | session
  | admin
  deriving DecidableEq, Repr

/-- `COMMANDS`, by the tier of each command. -/
def commandTiers : List (String × Tier) :=
  [("start", .read), ("menu", .read), ("help", .read), ("status", .read), ("health", .read),
   ("rpc", .read), ("gas", .read), ("backup", .read), ("wallets", .read), ("funding", .read),
   ("enablement", .read), ("drops", .read), ("calendar", .read), ("check", .read),
   ("plan", .read), ("request", .read), ("requests", .read), ("runs", .read), ("run", .read),
   ("reconcile", .change), ("watchlist", .read), ("track", .change), ("untrack", .change),
   ("prepare", .change), ("simulate", .change), ("cancel", .change), ("kill", .stop),
   ("revoke", .stop), ("lock", .stop), ("unlock", .session), ("release", .start),
   ("fire", .start), ("schedule", .start), ("schedules", .read), ("watchaccept", .start),
   ("limits", .read), ("history", .read), ("eligible", .read), ("activity", .read),
   ("holdings", .read), ("portfolio", .read), ("gasalerts", .read), ("gasalert", .change),
   ("invite", .admin), ("users", .admin), ("removeuser", .admin), ("broadcast", .admin)]

/-- Besides the capital letters, the Kelvin sign has an ASCII letter as its lower case. -/
def lowerCaseChar (char : Char) : Char :=
  if char = 'K' then 'k' else char.toLower

/-- The command of a text: its first word, without the slash before it and the name of
the bot behind it, in lower case. -/
def commandOf (text : String) : List Char :=
  let word := (IntegerText.trim text.toList).takeWhile fun char => !IntegerText.isSpace char
  let named := match word with
    | '/' :: rest => rest
    | _ => word
  (named.takeWhile (· ≠ '@')).map lowerCaseChar

/-- Stop commands and their confirmation taps. -/
def isStopUpdate (update : TelegramUpdate) : Bool :=
  let command := commandOf ((update.callbackData.or update.messageText).getD "")
  "tap_kill_".toList.isPrefixOf command ||
    commandTiers.any fun entry => entry.1.toList = command && entry.2 = .stop

example : isStopUpdate { updateId := 1, messageText := some " /Kill@bot now" } = true := by
  decide +kernel

end MintBot
