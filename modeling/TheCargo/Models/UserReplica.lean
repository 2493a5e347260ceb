import TheCargo.Models.Base
import TheCargo.Models.Columns

namespace TheCargo.Models

inductive UserField
  | email
  | firstName
  | lastName
  | phone
  | ext
  | picture
  | isActive
  deriving DecidableEq, Repr

def UserField.key : UserField → String
  | .email => "email"
  | .firstName => "first_name"
  | .lastName => "last_name"
  | .phone => "phone"
  | .ext => "ext"
  | .picture => "picture"
  | .isActive => "is_active"

def UserField.column : UserField → Column
  | .email => ⟨.string 255, false⟩
  | .firstName => ⟨.string 150, true⟩
  | .lastName => ⟨.string 150, true⟩
  | .phone => ⟨.string 50, true⟩
  | .ext => ⟨.string 10, true⟩
  | .picture => ⟨.string 500, true⟩
  | .isActive => ⟨.boolean, false⟩

def userColumns : Columns UserField where
  fields := [.email, .firstName, .lastName, .phone, .ext, .picture, .isActive]
  column := UserField.column
  complete field := by cases field <;> decide

structure UserReplica where
  organizationId : UUID
  values : UserField → Value

end TheCargo.Models
