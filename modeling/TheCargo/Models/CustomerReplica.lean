import TheCargo.Models.Base
import TheCargo.Models.Columns

namespace TheCargo.Models

inductive CustomerField
  | firstName
  | lastName
  | company
  | companyType
  | email
  | phone
  | secondaryPhone
  | companyPhone
  deriving DecidableEq, Repr

def CustomerField.key : CustomerField → String
  | .firstName => "first_name"
  | .lastName => "last_name"
  | .company => "company"
  | .companyType => "company_type"
  | .email => "email"
  | .phone => "phone"
  | .secondaryPhone => "secondary_phone"
  | .companyPhone => "company_phone"

def CustomerField.column : CustomerField → Column
  | .firstName | .lastName | .company | .email => ⟨.string 255, true⟩
  | .companyType => ⟨.string 20, true⟩
  | .phone | .secondaryPhone | .companyPhone => ⟨.string 50, true⟩

def customerColumns : Columns CustomerField where
  fields := [.firstName, .lastName, .company, .companyType, .email, .phone, .secondaryPhone, .companyPhone]
  column := CustomerField.column
  complete field := by cases field <;> decide

structure CustomerReplica where
  organizationId : UUID
  companyId : Option UUID
  values : CustomerField → Value

end TheCargo.Models
