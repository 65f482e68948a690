import CBootstrap.Lib.Bytes

/-!
# KMIP tags and item types, and the names the dumper prints for them

`kmip_tag_type_t` and `kmip_item_type_t` are C enumerations, but the reader casts whatever
number it finds on the wire into them.  A tag is therefore any number `0x420000 + t`, and
`kmipTagNames` is the `switch` of `kmip_tag_type_to_string` as a table, with
`kmipTagTypeToString` returning `"(Unknown Tag)"` outside it.  An item type is one of the ten
enumerators or, as `KmipItemType.other`, any other byte.

`operationNames` is the inner `switch` of `add_comment_describing_enum_value`.
-/

namespace CBootstrap.Kmip

open Bytes

/-! ## Item types -/

/-- `kmip_item_type_t`, with the bytes that name no enumerator. -/
inductive KmipItemType
  | struct
  | integer
  | longInteger
  | bigInteger
  | enumeration
  | boolean
  | textString
  | byteString
  | dateTime
  | interval
  /-- A byte outside `0x01 … 0x0A`. -/
  | other (code : ℕ)
  deriving DecidableEq, Repr

/-- The cast `(kmip_item_type_t) u8`. -/
def KmipItemType.ofU8 : ℕ → KmipItemType
  | 0x01 => .struct
  | 0x02 => .integer
  | 0x03 => .longInteger
  | 0x04 => .bigInteger
  | 0x05 => .enumeration
  | 0x06 => .boolean
  | 0x07 => .textString
  | 0x08 => .byteString
  | 0x09 => .dateTime
  | 0x0A => .interval
  | code => .other code

/-- The byte an item type is encoded as. -/
def KmipItemType.toU8 : KmipItemType → ℕ
  | .struct => 0x01
  | .integer => 0x02
  | .longInteger => 0x03
  | .bigInteger => 0x04
  | .enumeration => 0x05
  | .boolean => 0x06
  | .textString => 0x07
  | .byteString => 0x08
  | .dateTime => 0x09
  | .interval => 0x0A
  | .other code => code

/-- `kmip_item_type_to_string`. -/
def kmipItemTypeToString : KmipItemType → String
  | .struct => "Structure"
  | .integer => "Integer"
  | .longInteger => "LongInteger"
  | .bigInteger => "BigInteger"
  | .enumeration => "Enumeration"
  | .boolean => "Boolean"
  | .textString => "TextString"
  | .byteString => "ByteString"
  | .dateTime => "DateTime"
  | .interval => "Interval"
  | .other _ => "(Unknown Type)"

/-! ## Tags -/

/-- The cases of `kmip_tag_type_to_string`, in the order of the `switch`. -/
def kmipTagNames : List (ℕ × String) :=
  [(0x420001, "ActivationDate"), (0x420002, "ApplicationData"),
   (0x420003, "ApplicationNamespace"), (0x420004, "ApplicationSpecificInformation"),
   (0x420005, "ArchiveDate"), (0x420006, "AsynchronousCorrelationValue"),
   (0x420007, "AsynchronousIndicator"), (0x420008, "Attribute"), (0x420009, "AttributeIndex"),
   (0x42000a, "AttributeName"), (0x42000b, "AttributeValue"), (0x42000c, "Authentication"),
   (0x42000d, "BatchCount"), (0x42000e, "BatchErrorContinuationOption"), (0x42000f, "BatchItem"),
   (0x420010, "BatchOrderOption"), (0x420011, "BlockCipherMode"),
   (0x420012, "CancellationResult"), (0x420013, "Certificate"),
   (0x420014, "CertificateIdentifier"), (0x420015, "CertificateIssuer"),
   (0x420016, "CertificateIssuerAlternativeName"),
   (0x420017, "CertificateIssuerDistinguishedName"), (0x420018, "CertificateRequest"),
   (0x420019, "CertificateRequestType"), (0x42001a, "CertificateSubject"),
   (0x42001b, "CertificateSubjectAlternativeName"),
   (0x42001c, "CertificateSubjectDistinguishedName"), (0x42001d, "CertificateType"),
   (0x42001e, "CertificateValue"), (0x42001f, "CommonTemplateAttribute"),
   (0x420020, "CompromiseDate"), (0x420021, "CompromiseOccurrenceDate"),
   (0x420022, "ContactInformation"), (0x420023, "Credential"), (0x420024, "CredentialType"),
   (0x420025, "CredentialValue"), (0x420026, "CriticalityIndicator"),
   (0x420027, "CRTCoefficient"), (0x420028, "CryptographicAlgorithm"),
   (0x420029, "CryptographicDomainParameters"), (0x42002a, "CryptographicLength"),
   (0x42002b, "CryptographicParameters"), (0x42002c, "CryptographicUsageMask"),
   (0x42002d, "CustomAttribute"), (0x42002e, "D"), (0x42002f, "DeactivationDate"),
   (0x420030, "DerivationData"), (0x420031, "DerivationMethod"),
   (0x420032, "DerivationParameters"), (0x420033, "DestroyDate"), (0x420034, "Digest"),
   (0x420035, "DigestValue"), (0x420036, "EncryptionKeyInformation"), (0x420037, "G"),
   (0x420038, "HashingAlgorithm"), (0x420039, "InitialDate"), (0x42003a, "InitializationVector"),
   (0x42003b, "Issuer"), (0x42003c, "IterationCount"), (0x42003d, "IVCounterNonce"),
   (0x42003e, "J"), (0x42003f, "Key"), (0x420040, "KeyBlock"), (0x420041, "KeyCompressionType"),
   (0x420042, "KeyFormatType"), (0x420043, "KeyMaterial"), (0x420044, "KeyPartIdentifier"),
   (0x420045, "KeyValue"), (0x420046, "KeyWrappingData"), (0x420047, "KeyWrappingSpecification"),
   (0x420048, "LastChangeDate"), (0x420049, "LeaseTime"), (0x42004a, "Link"),
   (0x42004b, "LinkType"), (0x42004c, "LinkedObjectIdentifier"), (0x42004d, "MACSignature"),
   (0x42004e, "MACSignatureKeyInformation"), (0x42004f, "MaximumItems"),
   (0x420050, "MaximumResponseSize"), (0x420051, "MessageExtension"), (0x420052, "Modulus"),
   (0x420053, "Name"), (0x420054, "NameType"), (0x420055, "NameValue"),
   (0x420056, "ObjectGroup"), (0x420057, "ObjectType"), (0x420058, "Offset"),
   (0x420059, "OpaqueDataType"), (0x42005a, "OpaqueDataValue"), (0x42005b, "OpaqueObject"),
   (0x42005c, "Operation"), (0x42005d, "OperationPolicyName"), (0x42005e, "P"),
   (0x42005f, "PaddingMethod"), (0x420060, "PrimeExponentP"), (0x420061, "PrimeExponentQ"),
   (0x420062, "PrimeFieldSize"), (0x420063, "PrivateExponent"), (0x420064, "PrivateKey"),
   (0x420065, "PrivateKeyTemplateAttribute"), (0x420066, "PrivateKeyUniqueIdentifier"),
   (0x420067, "ProcessStartDate"), (0x420068, "ProtectStopDate"), (0x420069, "ProtocolVersion"),
   (0x42006a, "ProtocolVersionMajor"), (0x42006b, "ProtocolVersionMinor"),
   (0x42006c, "PublicExponent"), (0x42006d, "PublicKey"),
   (0x42006e, "PublicKeyTemplateAttribute"), (0x42006f, "PublicKeyUniqueIdentifier"),
   (0x420070, "PutFunction"), (0x420071, "Q"), (0x420072, "QString"), (0x420073, "Qlength"),
   (0x420074, "QueryFunction"), (0x420075, "RecommendedCurve"),
   (0x420076, "ReplacedUniqueIdentifier"), (0x420077, "RequestHeader"),
   (0x420078, "RequestMessage"), (0x420079, "RequestPayload"), (0x42007a, "ResponseHeader"),
   (0x42007b, "ResponseMessage"), (0x42007c, "ResponsePayload"), (0x42007d, "ResultMessage"),
   (0x42007e, "ResultReason"), (0x42007f, "ResultStatus"), (0x420080, "RevocationMessage"),
   (0x420081, "RevocationReason"), (0x420082, "RevocationReasonCode"), (0x420083, "KeyRoleType"),
   (0x420084, "Salt"), (0x420085, "SecretData"), (0x420086, "SecretDataType"),
   (0x420087, "SerialNumber"), (0x420088, "ServerInformation"), (0x420089, "SplitKey"),
   (0x42008a, "SplitKeyMethod"), (0x42008b, "SplitKeyParts"), (0x42008c, "SplitKeyThreshold"),
   (0x42008d, "State"), (0x42008e, "StorageStatusMask"), (0x42008f, "SymmetricKey"),
   (0x420090, "Template"), (0x420091, "TemplateAttribute"), (0x420092, "TimeStamp"),
   (0x420093, "UniqueBatchItemID"), (0x420094, "UniqueIdentifier"), (0x420095, "UsageLimits"),
   (0x420096, "UsageLimitsCount"), (0x420097, "UsageLimitsTotal"), (0x420098, "UsageLimitsUnit"),
   (0x420099, "Username"), (0x42009a, "ValidityDate"), (0x42009b, "ValidityIndicator"),
   (0x42009c, "VendorExtension"), (0x42009d, "VendorIdentification"),
   (0x42009e, "WrappingMethod"), (0x42009f, "X"), (0x4200a0, "Y"), (0x4200a1, "Password"),
   (0x4200a2, "DeviceIdentifier"), (0x4200a3, "EncodingOption"),
   (0x4200a4, "ExtensionInformation"), (0x4200a5, "ExtensionName"), (0x4200a6, "ExtensionTag"),
   (0x4200a7, "ExtensionType"), (0x4200a8, "Fresh"), (0x4200a9, "MachineIdentifier"),
   (0x4200aa, "MediaIdentifier"), (0x4200ab, "NetworkIdentifier"),
   (0x4200ac, "ObjectGroupMember"), (0x4200ad, "CertificateLength"),
   (0x4200ae, "DigitalSignatureAlgorithm"), (0x4200af, "CertificateSerialNumber"),
   (0x4200b0, "DeviceSerialNumber"), (0x4200b1, "IssuerAlternativeName"),
   (0x4200b2, "IssuerDistinguishedName"), (0x4200b3, "SubjectAlternativeName"),
   (0x4200b4, "SubjectDistinguishedName"), (0x4200b5, "X509CertificateIdentifier"),
   (0x4200b6, "X509CertificateIssuer"), (0x4200b7, "X509CertificateSubject"),
   (0x4200b8, "KeyValueLocation"), (0x4200b9, "KeyValueLocationValue"),
   (0x4200ba, "KeyValueLocationType"), (0x4200bb, "KeyValuePresent"),
   (0x4200bc, "OriginalCreationDate"), (0x4200bd, "PGPKey"), (0x4200be, "PGPKeyVersion"),
   (0x4200bf, "AlternativeName"), (0x4200c0, "AlternativeNameValue"),
   (0x4200c1, "AlternativeNameType"), (0x4200c2, "Data"), (0x4200c3, "SignatureData"),
   (0x4200c4, "DataLength"), (0x4200c5, "RandomIV"), (0x4200c6, "MACData"),
   (0x4200c7, "AttestationType"), (0x4200c8, "Nonce"), (0x4200c9, "NonceID"),
   (0x4200ca, "NonceValue"), (0x4200cb, "AttestationMeasurement"),
   (0x4200cc, "AttestationAssertion"), (0x4200cd, "IVLength"), (0x4200ce, "TagLength"),
   (0x4200cf, "FixedFieldLength"), (0x4200d0, "CounterLength"),
   (0x4200d1, "InitialCounterValue"), (0x4200d2, "InvocationFieldLength"),
   (0x4200d3, "AttestationCapableIndicator"), (0x4200d4, "OffsetItems"),
   (0x4200d5, "LocatedItems"), (0x4200d6, "CorrelationValue"), (0x4200d7, "InitIndicator"),
   (0x4200d8, "FinalIndicator"), (0x4200d9, "RNGParameters"), (0x4200da, "RNGAlgorithm"),
   (0x4200db, "DRBGAlgorithm"), (0x4200dc, "FIPS186Variation"),
   (0x4200dd, "PredictionResistance"), (0x4200de, "RandomNumberGenerator"),
   (0x4200df, "ValidationInformation"), (0x4200e0, "ValidationAuthorityType"),
   (0x4200e1, "ValidationAuthorityCountry"), (0x4200e2, "ValidationAuthorityURI"),
   (0x4200e3, "ValidationVersionMajor"), (0x4200e4, "ValidationVersionMinor"),
   (0x4200e5, "ValidationType"), (0x4200e6, "ValidationLevel"),
   (0x4200e7, "ValidationCertificateIdentifier"), (0x4200e8, "ValidationCertificateURI"),
   (0x4200e9, "ValidationVendorURI"), (0x4200ea, "ValidationProfile"),
   (0x4200eb, "ProfileInformation"), (0x4200ec, "ProfileName"), (0x4200ed, "ServerURI"),
   (0x4200ee, "ServerPort"), (0x4200ef, "StreamingCapability"),
   (0x4200f0, "AsynchronousCapability"), (0x4200f1, "AttestationCapability"),
   (0x4200f2, "UnwrapMode"), (0x4200f3, "DestroyAction"), (0x4200f4, "ShreddingAlgorithm"),
   (0x4200f5, "RNGMode"), (0x4200f6, "ClientRegistrationMethod"),
   (0x4200f7, "CapabilityInformation"), (0x4200f8, "KeyWrapType"),
   (0x4200f9, "BatchUndoCapability"), (0x4200fa, "BatchContinueCapability"),
   (0x4200fb, "PKCS12FriendlyName"), (0x4200fc, "Description"), (0x4200fd, "Comment"),
   (0x4200fe, "AuthenticatedEncryptionAdditionalData"), (0x4200ff, "AuthenticatedEncryptionTag"),
   (0x420100, "SaltLength"), (0x420101, "MaskGenerator"),
   (0x420102, "MaskGeneratorHashingAlgorithm"), (0x420103, "PSource"),
   (0x420104, "TrailerField"), (0x420105, "ClientCorrelationValue"),
   (0x420106, "ServerCorrelationValue"), (0x420107, "DigestedData"),
   (0x420108, "CertificateSubjectCN"), (0x420109, "CertificateSubjectO"),
   (0x42010a, "CertificateSubjectOU"), (0x42010b, "CertificateSubjectEmail"),
   (0x42010c, "CertificateSubjectC"), (0x42010d, "CertificateSubjectST"),
   (0x42010e, "CertificateSubjectL"), (0x42010f, "CertificateSubjectUID"),
   (0x420110, "CertificateSubjectSerialNumber"), (0x420111, "CertificateSubjectTitle"),
   (0x420112, "CertificateSubjectDC"), (0x420113, "CertificateSubjectDNQualifier"),
   (0x420114, "CertificateIssuerCN"), (0x420115, "CertificateIssuerO"),
   (0x420116, "CertificateIssuerOU"), (0x420117, "CertificateIssuerEmail"),
   (0x420118, "CertificateIssuerC"), (0x420119, "CertificateIssuerST"),
   (0x42011a, "CertificateIssuerL"), (0x42011b, "CertificateIssuerUID"),
   (0x42011c, "CertificateIssuerSerialNumber"), (0x42011d, "CertificateIssuerTitle"),
   (0x42011e, "CertificateIssuerDC"), (0x42011f, "CertificateIssuerDNQualifier"),
   (0x420120, "Sensitive"), (0x420121, "AlwaysSensitive"), (0x420122, "Extractable"),
   (0x420123, "NeverExtractable"), (0x420124, "ReplaceExisting")]

/-- `kmip_tag_type_to_string`. -/
def kmipTagTypeToString (tag : ℕ) : String :=
  (kmipTagNames.lookup tag).getD "(Unknown Tag)"

/-- `KMIP_TAG_Operation`. -/
def kmipTagOperation : ℕ := 0x42005c

/-- The Operation values of section 9.1.3.2.26 of KMIP 1.0, as the dumper names them. -/
def operationNames : List (ℕ × String) :=
  [(0x01, "Create"), (0x02, "Create_Key_Pair"), (0x03, "Register"), (0x04, "Rekey"),
   (0x05, "Derive_Key"), (0x06, "Certify"), (0x07, "Recertify"), (0x08, "Locate"),
   (0x09, "Check"), (0x0A, "Get"), (0x0B, "Get_Attributes"), (0x0C, "Get_Attribute_List"),
   (0x0D, "Add_Attribute"), (0x0E, "Modify_Attribute"), (0x0F, "Delete_Attribute"),
   (0x10, "Obtain_Lease"), (0x11, "Get_Usage_Allocation"), (0x12, "Activate"), (0x13, "Revoke"),
   (0x14, "Destroy"), (0x15, "Archive"), (0x16, "Recover"), (0x17, "Validate"), (0x18, "Query"),
   (0x19, "Cancel"), (0x1A, "Poll"), (0x1B, "Notify"), (0x1C, "Put")]

/-- `add_comment_describing_enum_value`: the text it appends. -/
def addCommentDescribingEnumValue (tag value : ℕ) : List UInt8 :=
  if tag = kmipTagOperation then
    ascii "<!-- " ++ ascii ((operationNames.lookup value).getD "Unknown") ++ ascii " -->"
  else []

end CBootstrap.Kmip
