import TradeMind.Model.KillSwitchAdmin

/-!
# The Telegram command poll of the notifier

`notifier/main.py`: `_poll_telegram_commands`.  A poll asks Telegram for the updates above
the stored `last_telegram_update_id`, handles them in turn and commits the new id once, at
the end of the batch.  The handler of a kill-switch command calls the admin API, so what it
does there outlives a poll that stores nothing.
-/

set_option autoImplicit false

namespace TradeMind.Model

/-- An update of `getUpdates`: the fields the handler reads. -/
structure TelegramUpdate where
  updateId : ℤ
  /-- `update["message"]["chat"]["id"]`, where the update has one. -/
  chatId : Option ℤ
  text : Option String
  deriving DecidableEq, Repr

/-- `str.isspace` of one character. -/
def isSpace (c : Char) : Bool :=
  (9 ≤ c.toNat && c.toNat ≤ 13) || (0x1c ≤ c.toNat && c.toNat ≤ 0x20) ||
    (0x2000 ≤ c.toNat && c.toNat ≤ 0x200a) ||
    [0x85, 0xa0, 0x1680, 0x2028, 0x2029, 0x202f, 0x205f, 0x3000].contains c.toNat

/-- `text.strip().split()[0]`, or the empty string where there is no word. -/
def firstWord (text : String) : String :=
  String.ofList ((text.toList.dropWhile isSpace).takeWhile fun c => !isSpace c)

/-- A POST of the notifier to `/killswitch/enable` or `/killswitch/disable`. -/
structure AdminRequest where
  action : KillSwitchAction
  reason : String
  updatedBy : String
  deriving DecidableEq, Repr

/-- The request that `_handle_telegram_update` makes: only the operator's chat may issue
commands, and there are two of them. -/
def telegramCommand (telegramChatId : String) (u : TelegramUpdate) : Option AdminRequest :=
  let chatId := (u.chatId.map toString).getD ""
  if telegramChatId = "" ∨ chatId ≠ telegramChatId then none
  else
    let command := firstWord (u.text.getD "")
    if command = "/killswitch_on" then
      some { action := .enable, reason := "telegram command", updatedBy := "telegram:" ++ chatId }
    else if command = "/killswitch_off" then
      some { action := .disable, reason := "telegram command", updatedBy := "telegram:" ++ chatId }
    else none

/-- An update of a batch and what its handler meets. -/
structure UpdateAttempt where
  update : TelegramUpdate
  /-- The admin API carries the request out, whether or not its reply arrives. -/
  accepted : Bool
  /-- The POST ends in an `httpx.HTTPError`, which the handler catches. -/
  httpError : Bool
  /-- Something else leaves the handler. -/
  raises : Bool
  deriving DecidableEq, Repr

/-- The update's kill-switch request succeeds. -/
def UpdateAttempt.succeeds (telegramChatId : String) (a : UpdateAttempt) : Bool :=
  a.accepted && (telegramCommand telegramChatId a.update).isSome

/-- The update fails: its request does, or its handler raises. -/
def UpdateAttempt.fails (telegramChatId : String) (a : UpdateAttempt) : Bool :=
  a.raises || (a.httpError && (telegramCommand telegramChatId a.update).isSome)

/-- An execution of the handler, with the admin request that it made succeed. -/
structure Execution where
  updateId : ℤ
  request : Option AdminRequest
  failed : Bool
  deriving DecidableEq, Repr

/-- `_handle_telegram_update`. -/
def UpdateAttempt.execute (telegramChatId : String) (a : UpdateAttempt) : Execution where
  updateId := a.update.updateId
  request := if a.accepted then telegramCommand telegramChatId a.update else none
  failed := a.fails telegramChatId

/-- The stored `last_telegram_update_id`, and the executions of each poll so far. -/
structure CommandLoop where
  cursor : Option ℤ := none
  history : List (List Execution) := []
  deriving DecidableEq, Repr

/-- A poll: what `get_updates` answers, and what the poll meets. -/
structure CommandPoll where
  attempts : List UpdateAttempt
  /-- The state cannot be read, or `get_updates` raises. -/
  readRaises : Bool := false
  commit : Option Fault := none
  deriving DecidableEq, Repr

/-- The `offset` a poll passes to `get_updates`. -/
def CommandLoop.offset (s : CommandLoop) : Option ℤ := s.cursor.map (· + 1)

/-- The loop over the updates: its executions, and the id on the session's state at its end or
none where a handler raises. -/
def handleUpdates (telegramChatId : String) (lastUpdateId : Option ℤ) :
    List UpdateAttempt → List Execution × Option (Option ℤ)
  | [] => ([], some lastUpdateId)
  | a :: rest =>
    if a.raises then ([a.execute telegramChatId], none)
    else
      let (executions, last) := handleUpdates telegramChatId (some a.update.updateId) rest
      (a.execute telegramChatId :: executions, last)

/-- One turn of `_poll_telegram_commands`. -/
def pollTelegramCommands (telegramChatId : String) (s : CommandLoop) (p : CommandPoll) :
    CommandLoop :=
  if p.readRaises then s
  else
    match handleUpdates telegramChatId s.cursor p.attempts with
    | (executions, none) => { s with history := s.history ++ [executions] }
    | (executions, some last) =>
      -- an empty batch is rolled back; a commit that raises may have gone through
      { cursor := if p.attempts = [] ∨ p.commit = some .before then s.cursor else last
        history := s.history ++ [executions] }

end TradeMind.Model
