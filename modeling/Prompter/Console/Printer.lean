import Prompter.Json
import Prompter.Session.Reply
import Prompter.Tree.Spine

namespace Prompter.Console

open Prompter.Session (State Cause Outcome)

inductive Format where
  | words
  | json
  deriving DecidableEq, Repr

inductive Message where
  | lines (ls : List Text)
  | outcome (o : Outcome)
  | state (s : State)
  | bindings (b : Bindings)
  | listing (l : Listing)

def line (t : Text) : Text := t ++ ['\n']

def helpText : Text :=
  ["利用可能なコマンド:",
    "  :help              ヘルプ（本メッセージ + インタプリタのヘルプ）",
    "  :load PROG EXPR    プログラムを入力 EXPR で読み込む",
    "  :run               次のブレークポイントか完了まで実行",
    "  :step              1 文だけ実行",
    "  :store             変数の束縛を表示",
    "  :break             ブレークポイント一覧",
    "  :break N [PROG]    ブレークポイントを追加",
    "  :delbreak N [PROG] ブレークポイントを削除",
    "  :cd DIR            インタプリタの作業ディレクトリを変更",
    "  :state             手元の状態スナップショットを表示",
    "  :quit              終了",
    "  それ以外の入力はそのままインタプリタへ送る"].flatMap (line ·.toList)

def failureText (reason : Text) : Text := line ("エラー: " ++ reason)

def invalidText (input : Text) : Text := failureText ("コマンド形式が不正です: " ++ input)

/-- A tree in its notation, and as a number. -/
def describe (t : Tree) : Text := t.render ++ " (" ++ Text.decimal t.toNat ++ ")"

def assign (name : Text) (value : Tree) : Text := name ++ " = " ++ describe value

def phaseName : Phase → Text
  | .idle => "Idle"
  | .loaded => "Loaded"
  | .paused => "Paused"
  | .completed => "Completed"

def stateWords (s : State) : Text :=
  line ("  [" ++ phaseName s.phase ++ "] program=" ++ s.program.getD ['-'] ++ " line="
      ++ (s.line.map Text.decimal).getD ['-'] ++ " done=" ++ if s.done then "true" else "false")
    ++ (s.currentBindings.getD ∅).entries.flatMap (fun e ↦ line ("    " ++ assign e.1 e.2))
    ++ s.breakpoints.entries.flatMap fun e ↦
      line ("    break " ++ e.1 ++ ": "
        ++ (List.intersperse [',', ' '] (e.2.lines.map Text.decimal)).flatten)

def causeWords : Cause → Text
  | .done name value => "done: " ++ assign name value
  | .breakpoint n none => "breakpoint: line " ++ Text.decimal n
  | .breakpoint n (some note) => "breakpoint: line " ++ Text.decimal n ++ ": " ++ note
  | .start name value => "start: " ++ assign name value
  | .loopExit => "loop exit"

def Message.words : Message → Text
  | lines ls => ls.flatMap line
  | outcome o => line (causeWords o.cause) ++ stateWords o.state
  | state s => stateWords s
  | bindings b => b.entries.flatMap fun e ↦ e.2.entries.flatMap fun v ↦
      line ("(" ++ e.1 ++ ") " ++ assign v.1 v.2)
  | listing l =>
    if l.isEmpty then line "(ブレークポイントなし)"
    else l.entries.flatMap fun e ↦ e.2.flatMap fun n ↦ line (e.1 ++ ": line " ++ Text.decimal n)

def jsonTable {α : Type} (f : α → Json) (t : Table α) : Json :=
  .object (t.entries.map fun e ↦ (e.1, f e.2))

def jsonTree (t : Tree) : Json := .string t.render

def jsonLines (ns : List Nat) : Json := .array (ns.map .number)

def jsonBindings (b : Bindings) : Json := jsonTable (jsonTable jsonTree) b

def jsonState (s : State) : Json :=
  .object [("program", (s.program.map Json.string).getD .null),
    ("line", (s.line.map Json.number).getD .null),
    ("done", .bool s.done), ("bindings", jsonBindings s.bindings),
    ("breakpoints", jsonTable (fun l ↦ jsonLines l.lines) s.breakpoints)]

def jsonCause : Cause → List (Text × Json)
  | .done name value =>
    [("cause", .string "done"), ("variable", .string name), ("value", jsonTree value)]
  | .breakpoint n note =>
    ("cause", .string "breakpoint") :: ("line", .number n) ::
      note.toList.map fun t ↦ ("note", .string t)
  | .start name value =>
    [("cause", .string "start"), ("variable", .string name), ("value", jsonTree value)]
  | .loopExit => [("cause", .string "loop-exit")]

def jsonOutcome (o : Outcome) : Json :=
  .object (jsonCause o.cause ++ [(("state" : Text), jsonState o.state)])

def Message.json : Message → Json
  | lines ls => .array (ls.map .string)
  | outcome o => jsonOutcome o
  | state s => jsonState s
  | bindings b => jsonBindings b
  | listing l => jsonTable jsonLines l

def Message.show (m : Message) : Format → Text
  | .words => m.words
  | .json => line m.json.render

end Prompter.Console
