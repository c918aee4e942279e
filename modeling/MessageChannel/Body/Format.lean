namespace MessageChannel

inductive Format where
  | messagePack
  | json
deriving DecidableEq, Repr

def Format.name : Format → String
  | messagePack => "msgpack"
  | json => "json"

end MessageChannel
