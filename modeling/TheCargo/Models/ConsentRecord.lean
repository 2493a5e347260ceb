import TheCargo.Models.Base

namespace TheCargo.Models

inductive ConsentChannel
  | call
  | text
  deriving DecidableEq, Repr

inductive ConsentScope
  | global
  | line
  deriving DecidableEq, Repr

inductive ConsentStatus
  | doNotCall
  | doNotText
  | wrongNumber
  | allowed
  deriving DecidableEq, Repr

inductive ConsentSource
  | keyword
  | agent
  | imported
  | system
  | aiAgent
  deriving DecidableEq, Repr

inductive SendType
  | manual
  | mass
  | automated
  deriving DecidableEq, Repr

def ConsentChannel.value : ConsentChannel → String
  | .call => "call"
  | .text => "text"

def ConsentScope.value : ConsentScope → String
  | .global => "global"
  | .line => "line"

def ConsentStatus.value : ConsentStatus → String
  | .doNotCall => "do_not_call"
  | .doNotText => "do_not_text"
  | .wrongNumber => "wrong_number"
  | .allowed => "allowed"

def ConsentSource.value : ConsentSource → String
  | .keyword => "keyword"
  | .agent => "agent"
  | .imported => "import"
  | .system => "system"
  | .aiAgent => "ai_agent"

structure ConsentRecord where
  id : UUID
  organizationId : UUID
  customerNumber : String
  channel : ConsentChannel
  scope : ConsentScope
  lineNumber : Option String
  status : ConsentStatus
  source : ConsentSource
  sourceDetail : Option String
  createdByUserId : Option UUID
  reason : Option String
  createdAt : Instant
  deriving DecidableEq, Repr

end TheCargo.Models
