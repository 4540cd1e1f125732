/-!
# What can be said on the command line

The subcommands, the options that each takes, and what an option is worth where it is left out.
Every subcommand also takes one address.
-/

namespace Parley

namespace CommandLine

/-- Options that take a value. -/
inductive Setting
  | verbosity | config | room | name | limit | batch | threads | count
deriving DecidableEq, Repr

namespace Setting

def long : Setting → String
  | verbosity => "verbosity"
  | config => "config"
  | room => "room"
  | name => "name"
  | limit => "limit"
  | batch => "batch"
  | threads => "threads"
  | count => "count"

/-- The letter of an option. The same letter may mean different options of two subcommands. -/
def letter : Setting → Char
  | verbosity => 'v'
  | config => 'c'
  | room => 'r'
  | name | count => 'n'
  | limit => 'l'
  | batch => 'b'
  | threads => 't'

def fallback? : Setting → Option String
  | verbosity => some "info"
  | name => some "anonymous"
  | limit => some "1000000"
  | batch => some "10000"
  | count => some "4"
  | config | room | threads => none

def purpose : Setting → String
  | verbosity => "Set the verbosity of the log output"
  | config => "Path to a toml file with network settings"
  | room => "Room to join (defaults to the main room)"
  | name => "Name shown next to your messages"
  | limit => "Search for primes below this number"
  | batch => "Amount of numbers searched in a single job"
  | threads => "Number of compute threads (defaults to number of processors)"
  | count => "Number of echo messages to send"

/-- The options that may stand before the subcommand as well as behind it. -/
def common : List Setting := [verbosity, config]

end Setting

/-- The subcommands. -/
inductive Subcommand
  | chatServer | chat | gridCoord | gridWorker | ping
deriving DecidableEq, Repr

namespace Subcommand

def all : List Subcommand := [chatServer, chat, gridCoord, gridWorker, ping]

def name : Subcommand → String
  | chatServer => "chat-server"
  | chat => "chat"
  | gridCoord => "grid-coord"
  | gridWorker => "grid-worker"
  | ping => "ping"

def ofName? (word : String) : Option Subcommand :=
  all.find? (·.name == word)

def purpose : Subcommand → String
  | chatServer => "Start a chat server"
  | chat => "Join a chat room, sending lines typed into the terminal"
  | gridCoord => "Start a grid coordinator running a distributed prime search"
  | gridWorker => "Start a grid worker computing jobs for a coordinator"
  | ping => "Measure round-trip times to a server using echo messages"

def settings : Subcommand → List Setting
  | chatServer => Setting.common
  | chat => Setting.common ++ [.room, .name]
  | gridCoord => Setting.common ++ [.limit, .batch]
  | gridWorker => Setting.common ++ [.threads]
  | ping => Setting.common ++ [.count]

end Subcommand

/-- Words that may stand in the place of a subcommand. -/
def commandWords : List String :=
  Subcommand.all.map (·.name) ++ ["help"]

end CommandLine

end Parley
