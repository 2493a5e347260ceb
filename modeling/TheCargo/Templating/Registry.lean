import TheCargo.Foundation.PyString

namespace TheCargo.Templating

open Foundation

def customerSchema : List String :=
  ["first_name", "last_name", "full_name", "email", "phone", "alt_phone", "company", "type", "address", "city",
    "state", "zip"]

def agentSchema : List String := ["name", "first_name", "last_name", "email", "phone"]

def orgSchema : List String := ["name", "email", "phone", "website"]

def carrierSchema : List String := ["name", "mc_number", "usdot", "contact_name", "phone", "email", "city", "state"]

def stopSchema : List String :=
  ["type", "city", "state", "zip", "address", "business_name", "contact_name", "contact_phone", "scheduled_at"]

def shipmentSchema : List String :=
  ["code", "stage", "status", "transport_type", "instructions", "first_available_date", "estimated_pickup_at",
    "estimated_delivery_at", "created_at"]

def pricingSchema : List String :=
  ["tariff", "deposit", "balance_due", "carrier_pay", "cod_amount", "payment_method", "payment_terms"]

def companySchema : List String :=
  ["name", "department", "email", "support_email", "accounting_email", "phone", "mainline", "fax", "address",
    "website", "logo", "slug", "short_code", "code_letter", "mon_fri", "saturday", "sunday"]

def paymentSchema : List String :=
  ["invoice_number", "receipt_id", "amount", "amount_charged", "total", "surcharge", "surcharge_fee_rate",
    "discount", "method", "method_display", "name_display", "reference", "card_last4", "paid_date",
    "due_date_display"]

def shipmentDateFields : List String :=
  ["first_available_date", "estimated_pickup_at", "estimated_delivery_at", "created_at"]

/-- The paths of the fields of a schema under an object; every `only` and `exclude` names fields that are there. -/
def expand (object : String) (schema : List String) (only : Option (List String)) (exclude : List String) :
    List String :=
  (schema.filter fun key => (only.all (key ∈ ·)) && key ∉ exclude).map fun key => object ++ "." ++ key

def registry : List String :=
  expand "customer" customerSchema none [] ++
    ["vehicles_inline", "vehicles_bullets", "vehicles[0].year", "vehicles[0].make", "vehicles[0].model",
      "vehicles[0].vin"] ++
    expand "shipment" shipmentSchema none shipmentDateFields ++
    expand "pickup" stopSchema none [] ++
    expand "delivery" stopSchema none [] ++
    expand "shipment" shipmentSchema (some shipmentDateFields) [] ++
    expand "pricing" pricingSchema none [] ++
    expand "payment" paymentSchema none [] ++
    ["online_booking", "tracking_link"] ++
    expand "carrier" carrierSchema none [] ++
    expand "company" companySchema none [] ++
    expand "agent" agentSchema none [] ++
    expand "org" orgSchema none [] ++
    ["current_date", "current_year"]

def root (path : String) : String := (split "[" ((split "." path).headD "")).headD ""

def knownRoots : List String :=
  ["customer", "shipment", "agent", "pickup", "delivery", "vehicles", "stops", "files", "tags", "card_url",
    "payment_url", "sign_url", "_meta"]

def registryRoots : List String := registry.map root

def contextExtraRoots : List String :=
  ["customer", "shipment", "pricing", "agent", "company", "org", "carrier", "pickup", "delivery", "stops", "vehicle",
    "vehicles", "files", "tags", "payment", "vehicles_summary", "online_booking", "tracking_link", "current_time",
    "origin", "destination", "_meta"]

def knownVarRoots : List String := knownRoots ++ registryRoots ++ contextExtraRoots

end TheCargo.Templating
