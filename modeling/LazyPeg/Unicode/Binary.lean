import LazyPeg.Unicode.RangeSet

/-!
# Binary properties

Properties that a character has or has not (Unicode 16.0), the contributory ones (`Other_Math`,
...) included.
-/
namespace LazyPeg.Unicode

/-- The binary properties. -/
def binaryProperties : PropertyTable := [
  (["ahex", "asciihexdigit"],
    "bWJHFbAF"),
  (["alpha", "alphabetic"],
    "cNZGZbVAKAEAFWBbEBrPELOEHABAdIAbDRBBCDBAGABCBABTBdEBfIIgJBbLCAGbObNNBABBBBBAIbAEDbDKFcDB" ++
    "GOdXBHEHECKCCAQbVNdWYbGJBEAFXCSTYHKFXBFIAIbPKLDGGcXBPBCEONSBHCBCVBGBADDDHCBCBBAIAEBBEMBK" ++
    "AECBFEBCVBGBBBBBBEEEBCBEAHDBARFLCBIBCBVBGBBBEDIBCBBDAPDVDECBHCBCVBGBBBEDHCBCBJBEBBENAQBB" ++
    "FDCBDDBBABBDBDCDLEEDCBCDAGAbOMBCBWBPDHBCBCIBBCCACDbCDBHBCBWBJBEDHBCBCIBGBBDNCMMBCBbOCHBC" ++
    "BCBAFDHEWFBCBRDXBIBACGIFBABHSBNcFFGGAbZBBABEBXBABSBCCEBAGAODbGAcLHBbJESEPBbJcPcCBACEQcLK" ++
    "DCbLBAFACbQBmUBDCGBABDCbOBDCbGBDCGBABDCOBcEBDCcObLPQdHCFDxVCQBZFcWDKHTLUMTMMBCBBMbZCSOAE" ++
    "AcPdKHbQFcRKbEBLEIXbDCELbREZcCbBEcKCTbYAXBLCbXbZBOBHbZbPCDKbRBKOcCWCKbJCKFbQCCbPDBFBBDAF" ++
    "hJTbHLkRCFCbLCFCHBABABABbECcABGBADCBGDDCFEMFCBGeMANAQMdXAEACJBADEGABABABDBKCDFEEARbObfHb" ++
    "ZcrUiUGDDBMbLBAFACcDHAQWJGBGBGBGBGBGBGBGBbFbVAsBCZIHECEEdHGCBdLBDFbQBdPRbFbWPtSjtNcMbguE" ++
    "cPbTCkIDPKBUbUFHDeIbNICdYCcOCBBABHVTBbGYbZMcPBAbSFDABCKbGFbINbCDbYBLPAQPKEBcCJNSWDcQBABA" ++
    "YCCPCDLFCFCFJGBGBbQBNGeSVqnRMWEbWmnCoBCeBbMGMEFLBMBEBABBBBBeDbHnYScLCcBbOLeMEBfEbKZGZLdK" ++
    "DFCFCFCCbJLBZBSBBBOCNbIeScRcAkHbCDbWbVbFNbDFbQFbDCbJEHBEbQgBSbJEbJEbNIbZMKBOBGBBBKBOBGBB" ++
    "DbZMlYJVKHYFBbPBIcRFCABbRBBDACWKWJbEcNSBBKVKZcScDGBcMDBBFHBCBbCbQbCDbCbJHBbBbBcBKVKSNReG" ++
    "cUcDbYNbYNbNbIbBDAFWjQbPBBDBQCcDADbCKAIVbQRbUUbBWJcRbREKcEJANYXbYRDIbIDAJcLBDJBKABAbJRBb" ++
    "HCAGDcKGBABDBOBJHcEXDBHCBCVBGBBBEDHCBCBDAGAFGbCJBACABbLBJBACABDBBDABAbScNBCBDUCbEcNCBBAh" ++
    "CcBCGZFbIcKBADAcHcBCAcTbACNVGhDcEdZcLbFHCACHBBBbDBBCBCDdPHCbTCFBABBbBbYCJRcTFAScUhRbGbFI" ++
    "BbSBGBAbXbDCVBNcVGBBBbRDABBBCBACBYFBBBbKBBBDBAmPWJQBbODCeHAdBbjLdYeGRhNdxKdSPbpFRFZfxQFw" ++
    "KkdDbUcpDvWHbERdARbDSbVQDbFUFSqQbSiDcLeYcWEcEHQcMBBAMBOjbZIbvPbPJnfRDBGBBBlEPAbDCCAODIpF" ++
    "dkUeCFMDIHJEAiwFdGBcSBBCACBCDBLBABGBcMBDCHBGBbBBDBEBADGBnBCYBYBbEBYBbEBYBbEBYBbEBYBHcsYb" ++
    "EGFiFGBQCGBBBEFcJbHAeIbSKGQAmJbDSbRsQbBiUbDCAtBGBDBBBOBhOcHcPDADAbuIDBbABBBACABJBDBABAGA" ++
    "EABABABCBBBACABABABABABBBACDBGBDBDBABJBQFCBEBQyEZGZGZfmKclfBbGgdTGiNCinPOlbKPxXdqWuVcfYh" ++
    "hYFgfF"),
  (["bidic", "bidicontrol"],
    "ciEAjvLBbAEcDD"),
  (["bidim", "bidimirrored"],
    "bOBSABAbCABAbDABAbTAPAfmSDcuNBdqQBKBcCBOBgVAhKDDFDADBDDBDBABAEIFABRFDJBBABHBbFCDFAJBCSFB" ++
    "JECBEXCPIDUBHBbpTNcWACDBBBCFDFCDNpNVCFBNIAHFDAEEBBCEEABCCBKFCBMSBDCABACABDFBGCYBLBEDBBCB" ++
    "EbQCHBbNFABADEFCEADEBAjWAtVDDBBBOBCJbRHqLJCHdacRFFBgGBSABAbCABAbDABABBBBddpNAcFAcFAcFAcF" ++
    "A"),
  (["cased"],
    "cNZGZbVAKAEAFWBbEBhMBDEhZBbJHBbEEdSAbQDCBCDBAGABCBABTBdEBfIIgJBbLJbOefFbLBAFACbQBDzWdHCF" ++
    "dfUKFbQCCcMhJcMkRCFCbLCFCHBABABABbECcABGBADCBGDDCFEMFCBGeMANAQMdXAEACJBADEGABABABDBFEACD" ++
    "FEEARbFDBbfLbZcrUiUGDDBMbLBAFAbtwCbTSbDfCdXDDBcJCBBABHVEBCbfPbQBNGdBbeaIGMEbnTZGZbtTdBdS" ++
    "bJEbJeMKBOBGBBBKBOBGBBrJACCBbPBIbuZbYNbYdPVKVefIcLbgiQcLbmlKdGBcSBBCACBCDBLBABGBcMBDCHBG" ++
    "BbBBDBEBADGBnBCYBYBbEBYBbEBYBbEBYBbEBYBHcsYJBTGFkBcJdgKcPdaAZGZGZ"),
  (["ci", "caseignorable"],
    "bNAGALAbJABAcTAEABAEACBtJhJEBEAJBBAjRGhZAFAbXbSBABBBBBAbSALFKKBAbJAKUQAdXHBJBDbHABAbEbAd" ++
    "NKcGKEACAYXbRCbSAHBFIbPcFcDABAEHEADGKBNAPAcGAEDIAUBbAACBcFAEBEBCCDAbEBDALBcFAEEBBEAUBWFB" ++
    "AcGACABDIAHBLBbEAcJAMAbYADAcDABCFCBDHBLBbDAcGACAGAFBUBbCBcFBEDIAUBbDAcUAHCBAdMACGLIdUACI" ++
    "JABGcVBbBABABAcDNBEBBFKBbJJAdYDBFBBCBZBECQDNACBGAPAdQAxKCbkKCbDBbEBbEBcMBBGIACKDAFAbTEbZ" ++
    "AcNBbIAeOCEBJAGCiLBCAcGABGBABACHGJCAbNAIbEbXDbWABEBAFAbOIMBbGDCBBCcEABBDABCcGHCBcMFdECBM" ++
    "BGEAGADBbYcKNAbIdWrDABCLCNCNCNBMEIBKACACEbXEBJBANAQMbZbGejRBeJCeVAPAdSbFbVAsBAbKDDEFAdPF" ++
    "dPCbqbUAbwCFkKAdUDBJBAbCDdCBObHdAAXCdZCDBIADAEAZBFAfVBbARNAbMHZKbUCbWACDCBRAVBcOFCBCBMAI" ++
    "AbJALAbZABCCBFBBAbBAOBFBBAdWEJCeRACAEAbdzSAfRQwBPDAMPbIACAgNAHAGALAbJABAbVAbTBcPAVCtTAiS" ++
    "AfTEbnPFBbPBIwKCBBFDbOCEAgJBwBDbMAbAEBAmDBdBDcSKbXDeTAcCObPACBKCbXDCBCAEAKAbYCbKEBHcKAMB" ++
    "cAIKDCAdRCCABBGACAgBADHVBcFBDAbLGDEcSFNABABAOBdHHCCBAXAdGFBAEBBBjEDGBBBbBBdHHCABBeCABACF" ++
    "BAdXABACDBEjZIBBjWBBAEAfODCBEAbGJbOFCDIAJFCCbUMBBpQGBFBAdEVCGBBBBeSFDABBBGBAcUBDABAnJBLB" ++
    "cAEFABAXAhxDQGOqyYLDCdsAEcHGJDtOCbOBsOAcLQcMBBBygPDBGBBeuGBBDgyUbTCWuYCJPCGbEDfSCcyDcCEb" ++
    "XIAOAWEBOcaIGBQCGBBBEFcJbHAgENoEAcJDtNEjUBbcIGeFHebFEbsxxPAbEdReYjF"),
  (["cwcf", "changeswhencasefolded"],
    "cNZdMAKWBHbGABABABABABABABABABABABABABABABABABABABABABABABABABABABACABABABABABABABABBBAB" ++
    "ABABABABABABABABABABABABABABABABABABABABABBBABABABBBABBBCCDBBBCDBBBBABABBBACABBBCBABBDAH" ++
    "BBBBBBABABABABABABABACABABABABABABABABACBBABCBABABABABABABABABABABABABABABABABABABABABAB" ++
    "ABABABABABABABAHBBBCABDBABABABAjMAbQABADAIAGABCBABBBQBIWAMCDBBABABABABABABABABABABABABBC" ++
    "BBABBCbYbWABABABABABABABABABABABABABABABABAJABABABABABABABABABABABABABABABABABABABABABAB" ++
    "ABABABABABBBABABABABABACABABABABABABABABABABABABABABABABABABABABABABABABABABABABABABABAB" ++
    "ABABABABABABABABABABABABABABABACbLbWAefGbLBAFAbfEFdfUJGbQCCmIABABABABABABABABABABABABABA" ++
    "BABABABABABABABABABABABABABABABABABABABABABABABABABABABABABABABABABABABABABABABABABABABA" ++
    "BABABABABABABABABABABABABABABABABAFBCABABABABABABABABABABABABABABABABABABABABABABABABABA" ++
    "BABABABABABABABABABABABABABABABABABABABABABABAJHIFKHIHIFLABABABAIHQbVCCCFFCCFLDMEFCCFlLA" ++
    "DBGAbTPTAbfMZcsUbVbWABCCABABABDBACAICBABABABABABABABABABABABABABABABABABABABABABABABABAB" ++
    "ABABABABABABABABABABABABABABABABABABABABABABABAIABAEAbtyJABABABABABABABABABABABABABABABA" ++
    "BABABABABABABATABABABABABABABABABABABABABAfFABABABABABABADABABABABABABABABABABABABABABAB" ++
    "ABABABABABABABABABABABABABABABAKABABBBABABABAEABACABADABABABABABABABABABABEBEBABABABABAB" ++
    "ABABDBABBDAFABABABAYAbiGdBbeaIGMEbnTZbuZbNfGbJgAKBOBGBBcqCbYgBVegObFbgjWbFbulKbH"),
  (["cwcm", "changeswhencasemapped"],
    "cNZGZcGAKWBbEBcLBdFBbBCNCBBAEdOBRGbABBBABBDBBDBECABBCAHACABBDFFAKBgKAbQDCBDCBAGABCBABTBb" ++
    "UDbGBEBfCIgJBbLKbMefGbLBAFACbQCCzWdHCFdfUKFbQCChDADAQAeJfZCABeNCFCbLCFCHBABABABbECcABGBA" ++
    "DCBGDDCFEMFCBGlLADBGAbBARbFDBbfLbZcrUeIBBBBHdXHDDBMbLBAFAbtwCbTSbBfENCcJJODCCEBYBbDCBEGY" ++
    "BbhCAbCdBbeaIGMEbnTZGZbtTdBdSbJEbJeMKBOBGBBBKBOBGBBcoPbYNbYdPVKVefIcLbgiQcLbukEcP"),
  (["cwl", "changeswhenlowercased"],
    "cNZdXWBGbHABABABABABABABABABABABABABABABABABABABABABABABABABABABACABABABABABABABACABABAB" ++
    "ABABABABABABABABABABABABABABABABABABABABBBABADBBABBBCCDBBBCDBBBBABABBBACABBBCBABBDAHBBBB" ++
    "BBABABABABABABABACABABABABABABABABACBBABCBABABABABABABABABABABABABABABABABABABABABABABAB" ++
    "ABABABABABAHBBBCABDBABABABAlDABADAIAGABCBABBBQBIbJAIABABABABABABABABABABABAFACABBCbYbWAB" ++
    "ABABABABABABABABABABABABABABABAJABABABABABABABABABABABABABABABABABABABABABABABABABABABBB" ++
    "ABABABABABACABABABABABABABABABABABABABABABABABABABABABABABABABABABABABABABABABABABABABAB" ++
    "ABABABABABABABABABACbLehDbLBAFAbbUdHdgLAGbQCCmIABABABABABABABABABABABABABABABABABABABABA" ++
    "BABABABABABABABABABABABABABABABABABABABABABABABABABABABABABABABABABABABABABABABABABABABA" ++
    "BABABABABABABABABABAJABABABABABABABABABABABABABABABABABABABABABABABABABABABABABABABABABA" ++
    "BABABABABABABABABABABABABABABAJHIFKHIHIFLABABABAIHYHIHIHIELELDMELElLADBGAbTPTAbfMZcsUbVb" ++
    "WABCCABABABDBACAICBABABABABABABABABABABABABABABABABABABABABABABABABABABABABABABABABABABA" ++
    "BABABABABABABABABABABABABABAIABAEAbtyJABABABABABABABABABABABABABABABABABABABABABABATABAB" ++
    "ABABABABABABABABABABABAfFABABABABABABADABABABABABABABABABABABABABABABABABABABABABABABABA" ++
    "BABABABABABAKABABBBABABABAEABACABADABABABABABABABABABABEBEBABABABABABABABDBABBDAFABABABA" ++
    "YAbhaHZbuZbNfGbJgAKBOBGBBcqCbYgBVegObFbgjWbFbulKbH"),
  (["cwt", "changeswhentitlecased"],
    "dTZcGAbPXBHBABABABABABABABABABABABABABABABABABABABABABABABABABABABACABABABABABABABBBABAB" ++
    "ABABABABABABABABABABABABABABABABABABABABACABABCCABACADAFACADCCACABABACAEACADABACADABAEAB" ++
    "BBBBABABABABABABABABBBABABABABABABABABCBABADABABABABABABABABABABABABABABABABABABABADABAB" ++
    "ABABABABABABAIACBBAEABABABABFBBBABBDBBDBECABBCAHACABBDFFAKBgKAbRABADADCSAbBbIBBDCBABABAB" ++
    "ABABABABABABABABEBACACAcAbVBABABABABABABABABABABABABABABABABAJABABABABABABABABABABABABAB" ++
    "ABABABABABABABABABABABABABACABABABABABABBBABABABABABABABABABABABABABABABABABABABABABABAB" ++
    "ABABABABABABABABABABABABABABABABABABABABABABABABAbXbMfmEFdfUIBAjEADAQAeKABABABABABABABAB" ++
    "ABABABABABABABABABABABABABABABABABABABABABABABABABABABABABABABABABABABABABABABABABABABAB" ++
    "ABABABABABABABABABABABABABABABABABABABABABABGFABABABABABABABABABABABABABABABABABABABABAB" ++
    "ABABABABABABABABABABABABABABABABABABABABABABABABABABIIFKHIHIFKHIHINCHIHIHIEBBGADCBBIDCBI" ++
    "HKCBBnEAbHPEAbgLZctQbVBADBBABABAGACAKABABABABABABABABABABABABABABABABABABABABABABABABABA" ++
    "BABABABABABABABABABABABABABABABABABABABABABABABAIABAEAMbLBAFAbtwDABABABABABABABABABABABA" ++
    "BABABABABABABABABABABATABABABABABABABABABABABABABAfFABABABABABABADABABABABABABABABABABAB" ++
    "ABABABABABABABABABABABABABABABABABABABAKABACABABABABAEAEABBCABABABABABABABABABALABABABAB" ++
    "ABABABAEABACADAFABABAbAAbhCAbCdBbeaIGMEboZZbvHbNfGbJfZKBOBGBBcrBbYeVVegObFbgjWbFbulMbH"),
  (["cwu", "changeswhenuppercased"],
    "dTZcGAbPXBHBABABABABABABABABABABABABABABABABABABABABABABABABABABABACABABABABABABABBBABAB" ++
    "ABABABABABABABABABABABABABABABABABABABABACABABCCABACADAFACADCCACABABACAEACADABACADABAFBB" ++
    "BBBBABABABABABABABBBABABABABABABABABBBBBADABABABABABABABABABABABABABABABABABABABADABABAB" ++
    "ABABABABABAIACBBAEABABABABFBBBABBDBBDBECABBCAHACABBDFFAKBgKAbRABADADCSAbBbIBBDCBABABABAB" ++
    "ABABABABABABABEBACACAcAbVBABABABABABABABABABABABABABABABABAJABABABABABABABABABABABABABAB" ++
    "ABABABABABABABABABABABABACABABABABABABBBABABABABABABABABABABABABABABABABABABABABABABABAB" ++
    "ABABABABABABABABABABABABABABABABABABABABABABABAbXbMehCbQCCbdGFdfUIBAjEADAQAeKABABABABABA" ++
    "BABABABABABABABABABABABABABABABABABABABABABABABABABABABABABABABABABABABABABABABABABABABA" ++
    "BABABABABABABABABABABABABABABABABABABABABABABABABGFABABABABABABABABABABABABABABABABABABA" ++
    "BABABABABABABABABABABABABABABABABABABABABABABABABABABABABIIFKHIHIFKHIHINCcABBEABADCBBEAD" ++
    "DCBIHKCBBEAmZAbHPEAbgLZctQbVBADBBABABAGACAKABABABABABABABABABABABABABABABABABABABABABABA" ++
    "BABABABABABABABABABABABABABABABABABABABABABABABABABABAIABAEAMbLBAFAbtwDABABABABABABABABA" ++
    "BABABABABABABABABABABABABABATABABABABABABABABABABABABABAfFABABABABABABADABABABABABABABAB" ++
    "ABABABABABABABABABABABABABABABABABABABABABABAKABACABABABABAEAEABBCABABABABABABABABABALAB" ++
    "ABABABABABABAEABACADAFABABAbAAbhCAbCdBbeaIGMEboZZbvHbNfGbJfZKBOBGBBcrBbYeVVegObFbgjWbFbu" ++
    "lMbH"),
  (["dash"],
    "bTAcaUAbZAfkJAbnPAdbDFcJAbNAPApAAeoIACAbFBEAbCArEATAeHAczwABbLAKAgNAflOAmGA"),
  (["dep", "deprecated"],
    "mRAbyVAdkTABAdcJBdiJFbaVBbzryKA"),
  (["di", "defaultignorablecodepoint"],
    "gRAzXAbbOAegWBckHBdHEdaPEbAEbXPgkYAczmPPjFAgEAdBIctlNDhwXHbtkzLgbN"),
  (["dia", "diacritic"],
    "dQABAcTAGAEACBtJgCBHFFRBEAJBjTEiBAcDQBbABABBBAfEHEBfEBEBDCcPbAdNKcGKbIBeWHbPJQbBcJAQADDb" ++
    "CAcWAQAeGAQAeGAQAbVCcIAQAHAePAeGAQAeGAQAeFBQAeUAeHAMFBAeDANEcXBbBABABAEBcOCBBcKAeIABBbOB" ++
    "EEZGBAKBbbDCbkMBbEAfSKJAnJClGAUHCAbWOCKeAAPAbMIcCBcGALBcOBcMFdEYEAGACCbYcKdLLbLKrDABCLCN" ++
    "CNCNBexKCmFAtMFeBDdRAbsmKAMBBAbCBdEBObHdYCeFBMAbLAfVAbBRcFDbKAdRAMAbKAfTCcNDbZAdWEJCeYBb" ++
    "dzSAbdPPkKABAbVAbTBcPAbdKAbtNFBbPBIyNCEAgJBvZFbMAbAEpJCcSKbXDhKAbPAcUBeQBcKAcYAJCeABgWBd" ++
    "CBQAYGDEdLCBBNBdRADAeTBjRBeWAeOBeLAkJBjYBEAgAAdFASAdDAqFAjYABBdDAqJBXAhyAOqzPAdsAEcHGvSB" ++
    "vAQdCBygCDBGBBltHbTCWuYCDFIHCGbEDfmWcJhMGoLAcJDbdMBbcIGeFCBC"),
  (["ebase", "emojimodifierbase"],
    "olHAiLAQDgsjVAcICCACCeNBCKVSDAECBCHABAYAhTBEAVAEBgSCDEdFAQCJALAwDACAIHGAJJCCcEAcJBBBBARC" ++
    "BMiVCbQI"),
  (["ecomp", "emojicomponent"],
    "bJAGAFJmbJAiFAdftRAdoiWZtNEceADbsvuQdR"),
  (["emod", "emojimodifier"],
    "hhiXE"),
  (["emoji"],
    "bJAGAFJeHAEAlyRAMAiIAWAdMFPBoDBMAgKAZKEChRAiXBKAJAcGDBEJACACBCAEACABBCADADBICFABAFLLBCAB" ++
    "BBASACBSFBABBDBFACBEBLBFBCAFBBABBUBFFBDCAEACACFBACABABAGADAGAKBPACAEABAECBALBbWCJAOAOAoI" ++
    "BrVCTBbZAEAbvUAMAxDABAgmrQAhUAgEBMBOACJcXZBBXAUACIVBgSbHCeHCBBCCdECCBkCBcKLFBXHBCHMACDCA" ++
    "EBNBCAIBJAFCMCICCABAEAGADAGdHbWcRFHCCEJDABBDACJiTLEAkXbUBJBhCeIMDJFcDHOCKGI"),
  (["epres", "emojipresentation"],
    "nhQBhXDDACAuBBVBbYLbRATANAIBRBFBIAFAVAHBBAEACAHAEBbCAbJABAECBAcJCYAOAbhBBbZAEAgplEAhUAhI" ++
    "ACJcXZBAYAUACEBCVBgSbGMIBcRBVMbQEEMQDADcSBABhECcKNDBXSAbABNAdIdGbWcRGADCCCEDLBHIiTLEAkXb" ++
    "UBJBhCeIMDJFcDHOCKGI"),
  (["ext", "extender"],
    "hBAuQBbhUAqZAyGAfHAdLAbcYAeXAdnFAcEAxNApIAcQAhkJAbREdZBdPCbqbUAcgSAblAAWAfHAeEAVBbfzVAdb" ++
    "KBcfBAbBAEAbvBAlHAeMBtECbvJAbeoFBbtKBBAbqyABbuFAbgUC"),
  (["extpict", "extendedpictographic"],
    "gNAEAlyRAMAiIAWAdMFPBoDBMAdRAcSAZKEChRAiXBKAJAcGDBFBLBeJKeNCKBABAGADAGAKBPACAEABAECBALEb" ++
    "TCJAOAOAoIBrVCTBbZAEAbvUAMAxDABAgmrMjVNCbFAcIFMBOACJScEbBOKAUACIBDJqRFmFIkFbWeXeMLdHbQMD" ++
    "cEHKFbOHbEdDMbUBJBqYjWbnH"),
  (["grbase", "graphemebase"],
    "bGdQbHMBwVeIHCFEGBABTBiPHgJBbLCbXCCbUABACACAJbAEFRJLABbTVPBdWIAGBCAEbFCABbDbDdKLAObQJGDX" ++
    "EAJADAHOBYFABKFbERbPcFcCBABDIDBCHJCbCBBBHCBCVBGBADDDABBGBCBBANBBCEXFABFEBCVBGBBBBBBECYDB" ++
    "AHJCCBAMABIBCBVBGBBBEDDIABBDAPBELHAIBBHCBCVBGBBBEDACAGBCBPBBCERLABFDCBDDBBABBDBDCDLFABBD" ++
    "CBCDAVUGCBHBCBWBPDADDTCCACBEJHJBKBCBWBJBEDBCABBYBBBEJBCOKBCBbOCABBFCBCBBECBJEZCBBRDXBIBA" ++
    "CGJBGGHJCCMbVBBLHIMbLBBABEBXBABJBBJACEBAJJCDbGXCbABABABNBbJSAFACEbXHBFBMbLbSEAGACBCYCDDP" ++
    "EMBBCFBOBbNBAFACoMBDCGBABDCbOBDCbGBDCGBABDCOBcEBDCcOFbCDZGdHCFCzSDdKHRNSDBJROMBCPbZCAHHB" ++
    "BLIDJGJGKFJGdKHECbHBAFcRKbEEDCCEBBFHADbPCELbREZGKDcECBDcDBAJABBIFNJGJGNdIbVKDDHBbCJLCbFE" ++
    "BGcDBACCBANbVIBFODcJFbQCKLANAHDBFBCCAFhJcMkRCFCbLCFCHBABABABbECcABOBNCFBSCCBIBKFXHbWQBCb" ++
    "ABMDbGcLfJEzPWKVcrRCbFBnFDBFbSBAFACcDHBPWJGBGBGBGBGBGBGBGbHdPbIZBdKMiFbAcFGPBdHEdWFbQBdP" ++
    "BdHJbVBbriQDcCJnJUbUEAKbFCdBCFIhXCBBABHVPBCBDBYCEEJGcDIcPKLYMBbLIYLAMbDGbVBBEBCBBMBKEGBY" ++
    "BbOGBCBLCBHBACJCbFBbYBADBCECABAYQCHLFCFCFJGBGBcHEeMBBBDDJGqnRMWEbWmnCoBCeBbMGMEFABXBEBAB" ++
    "BBBBeUQrCCcBHAbGPQJWbIBSBDEEBfEEgACbEDFCFCFCCDGBGNBCLBZBSBBBOCNbIeSFCEbSDdJBMDAbVbSfBbCD" ++
    "bWQbAEbJJbDFbLKbDBbKENbQgBCJGbJEbJEbNIbZLLBOBGBBBKBOBGBBDbZMlYJVKHYFBbPBIcRFCABbRBBDACWB" ++
    "cTIIbWSBBFbGDbAFAcMcDETCbUPDBCBbCKIHIHcLbGbKGLJcBDbCCbAFZHDMGdCcUcDbYNbYHbPMJGbLIXIBiAbE" ++
    "BbPDACBQCcHbNIVLIWREDbMbBUWJABcBPGEbDBBCAMbWEBCBBDOYHJJbJFAJRIbIBCLbZJABHEBBPBTLRBbBDBEF" ++
    "BBcLGBABDBOBKGbUBCNJIBBHCBCVBGBBBEDABABDCBCBDAMGbCJBACABbLBABBPABBDABCBBbNcDIBDABUBABCbE" ++
    "bVBBGABBBACACDIJgKbUBBGDCACbAbKbYIBBACDLJGMTbQBABBIBGJGTbCbADABBEAJWhDbUJACAdWdEMHCACHBB" ++
    "BXBEBBGDBCJJcSHCbPIDBDbBAKbNGBEHJAGBDbTNACINcUHJhAbHOJGIBbLOABFKbCDbFZAHACAcXGBBBbLVAJJG" ++
    "FBBBbKEBBABAHJlYSCDJOBbJIBDWdIAPbXNbjMdYeGBELhNdxKdUNbpFRFZfxQFwKkdDbDMCDJcoSvWHbEBJEdCB" ++
    "JGbDHAKbVHOKJBGBUFSqQcFhQdMdXcWFcDLMcMDbCjbZIbvPbPJnfRDBGBBBlEPAbDCCAODIpFdkUeCFMDIHJCAC" ++
    "AfvKjPGqTgAeLcIjLKbMCcHFCWBHbDEcIVcNDAeSTMTMdIJYfFdGBcSBBCACBCDBLBABGBcMBDCHBGBbBBDBEBAD" ++
    "GBnBClFCvPcDDbYHBNBGbrWbEGFkBcJfQbSKGCJEBmIbDSbREJFArWbBEJiGbDCKEAsMGBDBBBOBhOCIbWcPHAEJ" ++
    "EBbeFcPcYcIhMDBbABBBACABJBDBABAGAEABABABCBBBACABABABABABBBACDBGBDBDBABJBQFCBEBQcABkKbREd" ++
    "VMOCOBOBbKKgRcEbCNbREIHBOFfYblVEQDMDeOEdQGLEAPLEcDIJGbNIbDCLEBcKnBMNCMDJFcDHOCKGIHfQBdXb" ++
    "nQclfBbGgdTGiNCinPOlbKPxXdqWuVcfYhhYFgfF"),
  (["grext", "graphemeextend"],
    "bdOeHkPGkDbSBABBBBBAcUKbWUQAdXGCFCBBDbJAbEbAdNKcGIJAYDBIBCBEbRCcHIbQXBbFcDABAEHEADGKBbDA" ++
    "cGABACDIAJAKBbAACBcFAEBEBCCDAbEBDALBcFAEEBBEAUBWFBAcGABBBDIAHCKBbEAcHABAMAJAbOADAcDABCFC" ++
    "BDHBLBbDAcGACBBADCBDHBLBbCBcFBBACDIAJAKBbDAcUAEACCBAIAdDACGMHdUACILGcVBbBABABAcDNBEBBFKB" ++
    "bJJAdYDBFBBCBZBECQDNACBGAPAbbBCbkKDbCCbDBbEBcMBBGIACKJAbTCBAeNBbIAeOCEBJAGCiLBCAcGABGBAB" ++
    "ACHGJCAbWbEbXDbWJECbMIMBbGDCFcEABBDABEcEHCBfWCBMBGEAGADBhQcLuEAhNbGeoCCfLAdSbFvIFeBBbsqE" ++
    "DBJbGBdCBkMADAEAZBFAfVBbARNAbMHZKBAbSCbWACDCBCAbKAcPFCBCBMAIAbVAbZABCCBFBBAbQBIAjEACAEAb" ++
    "dzSAbcJPQPoCBxHAiSAfTEcmGCBBFDbOCEAgJBwBDcNEmFBdBDcSKbXDeTAcCObPACBKCbXDCBHAcJCbKEBHcKAM" ++
    "BcAIBAIDCAdRCCDGACAgBADHVBcFBBABAMAJAOGDEcPACFBACABCECBAOBdHHCCBAXAdDACFBACABBBBjBACDGBB" ++
    "BbBBdHHCABBeCABACHdXABACDBEjZIBBjLAKDEAfODCBEAbGJbOFCDIAJFCCbUMBBpQGBFBAdEVCGBBBBeSFDABB" ++
    "BGBAcUBDABAnJBLBcAEFCXAhxTAGOqyYLDCdsAEcHGboIAcLDdDALBbdaXBgyZbTCWuWEDFIHCGbEDfSCcyDcCEb" ++
    "XIAOAWEBOcaIGBQCGBBBEdWAgEGoLAcJDtODjUBbcIGeFGbtcaFdReYjF"),
  (["grlink", "graphemelink"],
    "dnPAeXAeXAeXAeXAeXAeXAeXAeFBQAeUAeHAeXAhTAgYBcpLBbEAgBAzDAiTAdXBcSBgqTAbukKAbLAfVAfMAeEA" ++
    "lXAjMAbjsRAchIAbPAOAcFAeRBfJAeMAgYAdUAeYCeJAeXAjSAeXAeOAeMAkJAjZBgFAdFASAdDAqFAkABdDAqJB" ++
    "yzCA"),
  (["hex", "hexdigit"],
    "bWJHFbAFdslLJHFbAF"),
  (["hyphen"],
    "bTAeXAbvWAgzZAdbDBfiBAbcLAczuLAgNAdJA"),
  (["idc", "idcontinue"],
    "bWJHZEABZbVAKABACAFWBbEBrPELOEHABAReMBBCDBAGEBABTBdEBfIBECgJBbLCAGbOIbSBABBBBBAIbAEDbDKF" ++
    "cVEdXBHCJBSCAQcGCdWOcBEACACbTSbBEKFXBFIcWBeYCJBSBHCBCVBGBADDCICBCDIAEBBECLKABACCBFEBCVBG" ++
    "BBBBBBCABEEBCCDAHDBAHPLCBIBCBVBGBBBECJBCBCCAPDCJJGBCBHCBCVBGBBBECICBCCHCEBBECJBAQBBFDCBD" ++
    "DBBABBDBDCDLEEDCBDCAGAOJQMBCBWBPCIBCBDHBBCCACDCJQDBHBCBWBJBECIBCBDHBGBBDCJBCMMBCBbYBCBEF" ++
    "DHECJKFBCBRDXBIBACGDAEFBABHGJCBNcFFOBJbNBBABEBXBABWCEBABGBJCDbGAXBGJLABABAEJBbJETBRBbJJA" ++
    "cFcVGcZCbLBAFACbQBmUBDCGBABDCbOBDCbGBDCGBABDCOBcEBDCcOCCJIOPQdHCFDxVCQBZFcWDKHVJVLTMMBCB" ++
    "BMdFDAEBCJbHCBKGdKHbQFcRKbEBLELKbNCELbREZGKbLbBEcKBbCCKGJNAINBPbXcYDJRIMeLMcDIJDbWCKFbQC" ++
    "CQCBbMFuNCFCbLCFCHBABABABbECcABGBADCBGDDCFEMFCBGPBbXBTAbCANAQMbZMEADLRAEACJBACFGABABABPC" ++
    "DFEEARbOdzBiUGIMbLBAFACcDHAPXJGBGBGBGBGBGBGBGBbFtXCZOBECEEdHCGBdQFbQBdPRbFbWPtSjtNcMbguE" ++
    "cPbTCkIDbBUbVEJBeKbLICdYCcOCBBABHVcBEATbZMcRKJGXDABbWCbJMbCDcMOKGbEBcCJNCJGWDcUYCCPCEKFC" ++
    "FCFJGBGBbQBNGeSBBCJGqnRMWEbWmnCoBCeBbMGMEFLBMBEBABBBBBeDbHnYScLCcBbOLEPQPDBYCbGEBfETJHZE" ++
    "ABZKdLDFCFCFCCbJLBZBSBBBOCNbIeScRcAfGAfAbCDbWPAbFbFNbDFbQFbDCbJEHBEbQgBCJGbJEbJEbNIbZMKB" ++
    "OBGBBBKBOBGBBDbZMlYJVKHYFBbPBIcRFCABbRBBDACWKWJbEcNSBBKVKZcScDGBcMDBBFHBCBbCCCEAbGbCDbCb" ++
    "JHBbDZcBKVKSNReGcUcDbYNbYNbNIJGbLDEBWjQbPBBDBQCcDbGKAIbGbFVbQUbBWJcSbFPJcHHANYHJGcABJEDI" ++
    "bJCAJcQEDBMBAbJRBbKGDcKGBABDBOBJHcGFJGDBHCBCVBGBBBEBJCBCCCAGAFGCGDELJBACABbLBJBACABDBHNB" ++
    "bDcWFJEDbEcRBAIJgKcBCIXFbIcMDALJbMcEHJGTbCbACOEJGGhDcGdXcVVHCACHBBBbDBBCIMJcSHCbTCHBBbBc" ++
    "KIAIcVDAScUhRbGPJGIBbSBIPJYbDCVBNcVGBBBbRDABBBIIJGFBBBbKBBBFHJlYWJQBbODENKdHAdBbjLdYeGRh" ++
    "NdxKdSPbpFQVKfxQFwKkdDcFcoSvWHbEBJGdABJGbDCELcCJDMJJUFSqQbSDJhQcLeYcWEcEHQcMBBBLBOjbZIbv" ++
    "PbPJnfRDBGBBBlEPAbDCCAODIpFdkUeCFMDIHJDBgeRJtYbTCWuWEDFIHCGbEDfSCrBdGBcSBBCACBCDBLBABGBc" ++
    "MBDCHBGBbBBDBEBADGBnBCYBYBbEBYBbEBYBbEBYBbEBYBHCbXtScCEbXIAOAWEBObqMbEGFiFGBQCGBBBEFcJbH" ++
    "AeIbSDNCJEAmJbERcFsCbPiGbQsRGBDBBBOBhOLGbPcXEJbtUDBbABBBACABJBDBABAGAEABABABCBBBACABABAB" ++
    "ABABBBACDBGBDBDBABJBQFCBEBQfaAJbnQclfBbGgdTGiNCinPOlbKPxXdqWuVcfYhhYFgfFbonhGjF"),
  (["idcompatmathcontinue"],
    "gWBFAmaGADKBOoHAEAWAgjjEAZAbFAZAbFAZAbFAZAbFAZA"),
  (["idcompatmathstart"],
    "mwWAEAWAgjjEAZAbFAZAbFAZAbFAZAbFAZA"),
  (["ideo", "ideographic"],
    "seWBZIOCblDjtNcMbfbJbhsIoBCeBbsiKAbBjbZIbvPbPJnuLpFbdeIclfBbGgdTGiNCinPOlbKPxXdqWuVcfYhh" ++
    "YFgfF"),
  (["ids", "idstart"],
    "cNZGZbVAKAEAFWBbEBrPELOEHABAeZEBBCDBAGABCBABTBdEBfIIgJBbLCAGbOcTbAEDbTbQbJBBdUBAPBHBKCCA" ++
    "QABbDbDdKLAYbGJBEAFVEAJADAXYHKFXBFRbPcGcBDASAHJPPEHCBCVBGBADDDAQANBBCOBKAIFEBCVBGBBBBBBb" ++
    "FDBATCQIBCBVBGBBBEDASAPBXALHCBCVBGBBBEDAbEBBCPARABFDCBDDBBABBDBDCDLWAcAHBCBWBPDAbACCACBb" ++
    "EAEHBCBWBJBEDAbFBBBPBRIBCBbOCAQAFCICYFFRDXBIBACGcGbVBBMGcGBBABEBXBABJBBJACEBAVDbGAcLHBbJ" ++
    "bBEeLbQUAQFEDDADBHCEMMARbLBAFACbQBmUBDCGBABDCbOBDCbGBDCGBABDCOBcEBDCcObLPQdHCFDxVCQBZFcW" ++
    "DKHRNSOROMBCPbZbJAEAcPdKHbOBAFcRKbEbXbDCELbREZcCWJcAdEAdPbURHcCbDNBKbRbAbJbPCKbJCKFbQCCb" ++
    "PDBFBBDAFhJcMkRCFCbLCFCHBABABABbECcABGBADCBGDDCFEMFCBGeMANAQMdXAEACJBACFGABABABPCDFEEARb" ++
    "OdzBiUGDDBMbLBAFACcDHAQWJGBGBGBGBGBGBGBGvECZIHECEEdHEEBdLBDFbQBdPRbFbWPtSjtNcMbguEcPbTCk" ++
    "IDPKBUbUQbECdBbNICdYCcOCBBABHVPBCBDBWbDbZObXcKFDABBLbBKWZbCHbUbCAQEBJKEBbOXCBHUWDADbXBAD" ++
    "BCECABAYCCKHCMFCFCFJGBGBbQBNGeKbDqnRMWEbWmnCoBCeBbMGMEFABJBMBEBABBBBBeDbHnYScLCcBbOLeMEB" ++
    "fEbKZGZLdKDFCFCFCCbJLBZBSBBBOCNbIeScRcAkHbCDbWbVbFNbDFbLKbDCbJEHBEbQgBSbJEbJEbNIbZMKBOBG" ++
    "BBBKBOBGBBDbZMlYJVKHYFBbPBIcRFCABbRBBDACWKWJbEcNSBBKVKZcScDGBcMAPDBCBbCbQbCDbCbJHBbBbBcB" ++
    "KVKSNReGcUcDbYNbYNbJbMbBJWjQbPGBQCcHbCKAIVbQRbUUbBWMcAcFBCANbSbGYbAbJbDACAIbIDAMbVODVABA" ++
    "bJRBYTBcLGBABDBOBJHbUbMHCBCVBGBBBEDASAMEbEJBACABbLBAZABAbScASDUCbEbVUBBAhCbUbPDbKbVUAcHb" ++
    "QNAcTbAbLGhDbReMcLbFHCACHBBBXPABAdQHCbMQABAbCAKbNHAVALbTTAScUhRbGbFIBbKRAbXbDeIGBBBbLVAZ" ++
    "FBBBbFOAmPSPABMBbHeUAdBbjLdYeGRhNdxKdSPbpFRFZfxQFwKkdDbDcpUvWHbERdARbDSbVQDbFUFSqQbSiDcL" ++
    "eYcWFAcOMcMBBAbCjbZIbvPbPJnfRDBGBBBlEPAbDCCAODIpFdkUeCFMDIHJiwKdGBcSBBCACBCDBLBABGBcMBDC" ++
    "HBGBbBBDBEBADGBnBCYBYBbEBYBbEBYBbEBYBbEBYBHcsYbEGFkBcJfQbSKGQAmJbDSbRsQbBiUbDCAtBGBDBBBO" ++
    "BhOcHcPHAbuIDBbABBBACABJBDBABAGAEABABABCBBBACABABABABABBBACDBGBDBDBABJBQFCBEBQgoAclfBbGg" ++
    "dTGiNCinPOlbKPxXdqWuVcfYhhYFgfF"),
  (["idsb", "idsbinaryoperator"],
    "seABCJtDA"),
  (["idst", "idstrinaryoperator"],
    "seCB"),
  (["idsu", "idsunaryoperator"],
    "seOB"),
  (["joinc", "joincontrol"],
    "mdOB"),
  (["loe", "logicalorderexception"],
    "fkIEeTEedSCCAccxMBCABB"),
  (["lower", "lowercase"],
    "dTZbVAKAEAbKXBHBABABABABABABABABABABABABABABABABABABABABABABABABABABABBBABABABABABABABBB" ++
    "ABABABABABABABABABABABABABABABABABABABABABABACABABCCABACADBEACADCCACABABACABBBACADABACBC" ++
    "CGACACABABABABABABABABBBABABABABABABABABBCABADABABABABABABABABABABABABABABABABABABABABAB" ++
    "ABABABABABABABABGCACBBAEABABABABcQBbJHBbEEdSAbRABADACDSAbBbIBBDCBABABABABABABABABABABABE" ++
    "BACACBbZbVBABABABABABABABABABABABABABABABABAJABABABABABABABABABABABABABABABABABABABABABA" ++
    "BABABABABACABABABABABABBBABABABABABABABABABABABABABABABABABABABABABABABABABABABABABABABA" ++
    "BABABABABABABABABABABABABABABABAbWbOehBbQBDbdGFdfUIBAeNhJcNABABABABABABABABABABABABABABA" ++
    "BABABABABABABABABABABABABABABABABABABABABABABABABABABABABABABABABABABABABABABABABABABABA" ++
    "BABABABABABABABABABABABABABABABIBABABABABABABABABABABABABABABABABABABABABABABABABABABABA" ++
    "BABABABABABABABABABABABABABABABABABABABABIIFKHIHIFKHIHINCHIHIHIEBBGADCBBIDCBIHKCBBeRANAQ" ++
    "MeFADBDAbBAEAEACBIDEAbHPEAbgLZctQbVBADBBABABAEABBBHDABABABABABABABABABABABABABABABABABAB" ++
    "ABABABABABABABABABABABABABABABABABABABABABABABABABABABABABABABBHABAEAMbLBAFAbtwDABABABAB" ++
    "ABABABABABABABABABABABABABABABABABABATABABABABABABABABABABABABABCfDABABABABABABCBABABABA" ++
    "BABABABABABABABABABABABABABABABABABABABABABABABABABABJBABACABABABABAEABACABCBABABABABABA" ++
    "BABABABAFAFABABABABABABABAEABACADABABABABABAWCBABCbfPbQBNGdBbeaIGMEboZZbvHbNfGbJfZKBOBGB" ++
    "BrJACCBbPBIbxLbYeVVegObFbgjWbFbmmKZbAGBRbAZbADBABGBKbAZbAZbAZbAZbAZbAZbAZbAZbAbBbCYBFbAY" ++
    "BFbAYBFbAYBFbAYBFBAcsYJBTGFkBcJdhSbH"),
  (["math"],
    "bRAQCbFAbDABAbTAEAbLAbFAbcACCAbABCCuHCjwNAbBCLADANAODVELEcNMEADBEESAEACJBACFGADBCBBCBFDN" ++
    "BAcQXBFBBEBEbFBAGBOkHIDUBdMAbEbABAYALGrDBMJEFEBCBDEOABACFLHFBcFABAbDDJCmYcLjWtRbWUCFdasQ" ++
    "AbfRFBAgGAQCbDABAbDABAfBAGDfeFBcxdWdGBcSBBCACBCDBLBABGBcMBDCHBGBbBBDBEBADGBnBClFCbXiiQDB" ++
    "bABBBACABJBDBABAGAEABABABCBBBACABABABABABBBACDBGBDBDBABJBQFCBEBQcAB"),
  (["mcm", "modifiercombiningmark"],
    "ckIBCAfBAGADBsNBBCDAbFA"),
  (["nchar", "noncharactercodepoint"],
    "dsdCbFuGBdsyOBdsyOBdsyOBdsyOBdsyOBdsyOBdsyOBdsyOBdsyOBdsyOBdsyOBdsyOBdsyOBdsyOBdsyOBdsyO" ++
    "B"),
  (["oalpha", "otheralphabetic"],
    "bgFAbDMwENBABBBBBAcUKbWMBGQAdXGEDCBEAbJAbEPdYKdXBDIBCBDeCAcILDGGTcCBCOBBFCKBbDCcGGCBCBKA" ++
    "KBbDCcGEEBCBEAbEBDALCcGHBCBBVBWCECcGGCBCBJBKBbEAcHEDCBCKAbOEcFGBCBCIBLBbDCcGGBCBCIBLBPAM" ++
    "DcGGBCBCKAKBbDCcXFBABHSBcJACGSAdVACFBBQAgHSJKBbJeGLBACDXDECBCCGDDNLBAKDclOBbEBbEBbEBcOSh" ++
    "GBbIAeOLEIiOEcFJCTcWBLCbXEbWOcICbEICBcFKbYSpWbHcoNbZdkGbFbtqAHbIBnQAIAXEdKBbYPBAcFAbMEbC" ++
    "LbTDbWLbLAcPNMAIBbTCbYABCCBFAbSEFAjDHbdzVAdeDEcmGCBBFDbeIDcNAmJBdBAjZCcBNbTBLCbTIJAcJCbK" ++
    "LSBcFCbWMOBdOICAGACAgBJXDcGGCBCBKAKBdGIBACABDBBdZMBCeCRjDGCGbDBdEOBAeCKdZNjXMjNFBBCBDABA" ++
    "fMGCFEAbCJbQEBDSKbUNpRHBGdFVBNeSFDABBBCBADAcOEBBBDnKDJBBAbWGDCyyNQfjCABcCHDdPBbdaYAnkJGB" ++
    "QCGBBBEdWAdhVAczWZGZGZ"),
  (["odi", "otherdefaultignorablecodepoint"],
    "bgPAfiLBckHBdhNAglIAdacPAdBIbwmiHABbDdSeXjGfiL"),
  (["ogrext", "othergraphemeextend"],
    "drYAYAnUAYAdYAYAiYABAEBBBJBdZAYAePAPAdmRAbEAbnKAFABAFBdXAcTBboIAgcVBbtwTAeEAbgnLBgwMAeMA" ++
    "kEAOAJAdSAJACABCFAiQAMAjHAkCAyJAMAchFAbeoKBbkxNBGFbtlaZdR"),
  (["oidc", "otheridcontinue"],
    "hBAbbRAgaJIclCAciZBgkRAdaeJA"),
  (["oids", "otheridstart"],
    "jhLBdgJAVAfvWB"),
  (["olower", "otherlowercase"],
    "gOAPAtHIHBbEEdSAcAAfcZAepZcKNAbIbKbaNANAQMiDPbgQZcwOBbugKBiCAeZCDBbhIDJAbiwSACCBbPBIddzH" ++
    "cJ"),
  (["omath", "othermath"],
    "dQAbhXCCAbABCBkqYAbBCLAbGDYBOBcNMEADBEESAEACJBADEGADBCBBCBFDDFEcXECDBBBBBABECBEBERCBBABG" ++
    "BAGBlEDgMBBAYARArDBMIFEFBCBDEOABACFYBcFABAbDDJBnEBbFJpNVcLDbGBdclFABAEAiDABAdcoVdGBcSBBC" ++
    "ACBCDBLBABGBcMBDCHBGBbBBDBEBADGBnBCYBYBbEBYBbEBYBbEBYBbEBYBHCbXiiQDBbABBBACABJBDBABAGAEA" ++
    "BABABCBBBACABABABABABBBACDBGBDBDBABJBQFCBEBQ"),
  (["oupper", "otheruppercase"],
    "mqQPbgGZgsiYZGZGZ"),
  (["patsyn", "patternsyntax"],
    "bHOKGbADBAbADbIGBABBBABBEAEADAXAbFAluEXIOCSBJlTbbRgEyFbEbrNtSeXoVCEYPAczqZBkBB"),
  (["patws", "patternwhitespace"],
    "JESAdWAlyMBYB"),
  (["pcm", "prependedconcatenationmark"],
    "chCFiHAbXAoUBdCAdvxYAPA"),
  (["qmark", "quotationmark"],
    "bIAEAfBAPAlwUHZBfiDArPDNCdabPDhHAEAdMB"),
  (["radical"],
    "rpWZBdKMiF"),
  (["ri", "regionalindicator"],
    "hgoKZ"),
  (["sd", "softdotted"],
    "eBBhOAkVAbEAcAAUAmIAdUABAjmNAbZANADAfCAgBAqFAiGBegGAgelHBbYBbYBbYBbYBbYBbYBbYBbYBbYBbYBb" ++
    "YBbYBdfYAlTBbAA"),
  (["space", "wspace", "whitespace"],
    "JESAdWAbAAihJAdpNKbDBFAbVAfxWA"),
  (["sterm", "sentenceterminal"],
    "bHAMAQAcaBAfRCgYAbRCjMAcJABADBlHBcpWBbeKAEBbdTAhQBgBBbTAFAmCBnQDgGBKBCBbDChFBcNBbjWAXBJC" ++
    "euXClUANAWBqNAbshWAkKBiTADAoSBdIBdRAfWBfRCfOBjPAbfcWACBcHADBgNAMAQAcNAedWBbxDEbSDhHBeNDe" ++
    "XCeZBGAQBdKBBBeEAlMBeNBoJBFOeBBjPCtXABAjRBdJBqEBbaQBcWBbcmBBfDAcNBLAvHBlKAbdoGAliMA"),
  (["term", "terminalpunctuation"],
    "bHAKABALBDAbfYAIAtTAcFAcUAOABCgYAbRKBAjBBcCFBHbFAkBBbwUBgQAEFlZBbeJHbdTAeUCcTBgBCDAbNDCB" ++
    "mCBnQDgGBKBBCbDChFEcKBbjWAXBJCeuXClUANAEAKABBDBqMBbshVBkJCiTEoSBdIBdRAfVCfRCeXAQBjPAbfcW" ++
    "ACBcFCBDgNAKABALBDAcNACAbpQAbWAbsOAhRAlYBfWFcQFdLDbkQEbSDhHGeIDeXCeZBGAQBdKEeEAlMBeNCMBn" ++
    "UDDOeBBjPCtXABAjRBdJBEBpYCbTAyVBcWBbyXEbamZBfDAcNCKAvHBlJBbdoGAliLD"),
  (["uideo", "unifiedideograph"],
    "tsAjtNcMbfbJbicSBBABBKABABBCCdveCclfBbGgdTGiNCinPOlbKPxXgrQhhYFgfF"),
  (["upper", "uppercase"],
    "cNZdXWBGbHABABABABABABABABABABABABABABABABABABABABABABABABABABABACABABABABABABABACABABAB" ++
    "ABABABABABABABABABABABABABABABABABABABABBBABADBBABBBCCDBBBCDBBBBABABBBACABBBCBABBDAHACAC" ++
    "ACABABABABABABABACABABABABABABABABACACABCBABABABABABABABABABABABABABABABABABABABABABABAB" ++
    "ABABABABABAHBBBCABDBABABABAlDABADAIAGABCBABBBQBIbJACCDABABABABABABABABABABABAFACABBCbYbW" ++
    "ABABABABABABABABABABABABABABABABAJABABABABABABABABABABABABABABABABABABABABABABABABABABAB" ++
    "BBABABABABABACABABABABABABABABABABABABABABABABABABABABABABABABABABABABABABABABABABABABAB" ++
    "ABABABABABABABABABABACbLehDbLBAFAbbUdHdgLAGbQCCmIABABABABABABABABABABABABABABABABABABABA" ++
    "BABABABABABABABABABABABABABABABABABABABABABABABABABABABABABABABABABABABABABABABABABABABA" ++
    "BABABABABABABABABABABAJABABABABABABABABABABABABABABABABABABABABABABABABABABABABABABABABA" ++
    "BABABABABABABABABABABABABABABABAJHIFKHIHIFLABABABAIHcUDMDMDMELDkCAEADCCCCADEGABABABDCDKB" ++
    "FAbAPTAbfMZcsUbVbWABCCABABABDBACAICBABABABABABABABABABABABABABABABABABABABABABABABABABAB" ++
    "ABABABABABABABABABABABABABABABABABABABABABABAIABAEAbtyJABABABABABABABABABABABABABABABABA" ++
    "BABABABABABATABABABABABABABABABABABABABAfFABABABABABABADABABABABABABABABABABABABABABABAB" ++
    "ABABABABABABABABABABABABABABAKABABBBABABABAEABACABADABABABABABABABABABABEBEBABABABABABAB" ++
    "ABDBABBDAFABABABAYAbhaHZbuZbNfGbJgAKBOBGBBcqCbYgBVegObFbgjWbFbmmQZbAZbAZbAABBCACBCDBHbAZ" ++
    "bABBDCHBGbBBBDBEBADGbBZbAZbAZbAZbAZbAZbEYbHYbHYbHYbHYbHAgnLbHdbIZGZGZ"),
  (["vs", "variationselector"],
    "jcTCBAdjcAPbwnkYjF"),
  (["xidc", "xidcontinue"],
    "bWJHZEABZbVAKABACAFWBbEBrPELOEHABAReMBBDCBAGEBABTBdEBfIBECgJBbLCAGbOIbSBABBBBBAIbAEDbDKF" ++
    "cVEdXBHCJBSCAQcGCdWOcBEACACbTSbBEKFXBFIcWBeYCJBSBHCBCVBGBADDCICBCDIAEBBECLKABACCBFEBCVBG" ++
    "BBBBBBCABEEBCCDAHDBAHPLCBIBCBVBGBBBECJBCBCCAPDCJJGBCBHCBCVBGBBBECICBCCHCEBBECJBAQBBFDCBD" ++
    "DBBABBDBDCDLEEDCBDCAGAOJQMBCBWBPCIBCBDHBBCCACDCJQDBHBCBWBJBECIBCBDHBGBBDCJBCMMBCBbYBCBEF" ++
    "DHECJKFBCBRDXBIBACGDAEFBABHGJCBNcFFOBJbNBBABEBXBABWCEBABGBJCDbGAXBGJLABABAEJBbJETBRBbJJA" ++
    "cFcVGcZCbLBAFACbQBmUBDCGBABDCbOBDCbGBDCGBABDCOBcEBDCcOCCJIOPQdHCFDxVCQBZFcWDKHVJVLTMMBCB" ++
    "BMdFDAEBCJbHCBKGdKHbQFcRKbEBLELKbNCELbREZGKbLbBEcKBbCCKGJNAINBPbXcYDJRIMeLMcDIJDbWCKFbQC" ++
    "CQCBbMFuNCFCbLCFCHBABABABbECcABGBADCBGDDCFEMFCBGPBbXBTAbCANAQMbZMEADLRAEACJBACFGABABABPC" ++
    "DFEEARbOdzBiUGIMbLBAFACcDHAPXJGBGBGBGBGBGBGBGBbFtXCZOBECEEdHCBCCBdQFbQBdPRbFbWPtSjtNcMbg" ++
    "uEcPbTCkIDbBUbVEJBeKbLICdYCcOCBBABHVcBEATbZMcRKJGXDABbWCbJMbCDcMOKGbEBcCJNCJGWDcUYCCPCEK" ++
    "FCFCFJGBGBbQBNGeSBBCJGqnRMWEbWmnCoBCeBbMGMEFLBMBEBABBBBBeDbHfIGiJScLCcBbOJGPQPDBYCbHABAD" ++
    "ABABABABeVTJHZEABZKdLDFCFCFCCbJLBZBSBBBOCNbIeScRcAfGAfAbCDbWPAbFbFNbDFbQFbDCbJEHBEbQgBCJ" ++
    "GbJEbJEbNIbZMKBOBGBBBKBOBGBBDbZMlYJVKHYFBbPBIcRFCABbRBBDACWKWJbEcNSBBKVKZcScDGBcMDBBFHBC" ++
    "BbCCCEAbGbCDbCbJHBbDZcBKVKSNReGcUcDbYNbYNbNIJGbLDEBWjQbPBBDBQCcDbGKAIbGbFVbQUbBWJcSbFPJc" ++
    "HHANYHJGcABJEDIbJCAJcQEDBMBAbJRBbKGDcKGBABDBOBJHcGFJGDBHCBCVBGBBBEBJCBCCCAGAFGCGDELJBACA" ++
    "BbLBJBACABDBHNBbDcWFJEDbEcRBAIJgKcBCIXFbIcMDALJbMcEHJGTbCbACOEJGGhDcGdXcVVHCACHBBBbDBBCI" ++
    "MJcSHCbTCHBBbBcKIAIcVDAScUhRbGPJGIBbSBIPJYbDCVBNcVGBBBbRDABBBIIJGFBBBbKBBBFHJlYWJQBbODEN" ++
    "KdHAdBbjLdYeGRhNdxKdSPbpFQVKfxQFwKkdDcFcoSvWHbEBJGdABJGbDCELcCJDMJJUFSqQbSDJhQcLeYcWEcEH" ++
    "QcMBBBLBOjbZIbvPbPJnfRDBGBBBlEPAbDCCAODIpFdkUeCFMDIHJDBgeRJtYbTCWuWEDFIHCGbEDfSCrBdGBcSB" ++
    "BCACBCDBLBABGBcMBDCHBGBbBBDBEBADGBnBCYBYBbEBYBbEBYBbEBYBbEBYBHCbXtScCEbXIAOAWEBObqMbEGFi" ++
    "FGBQCGBBBEFcJbHAeIbSDNCJEAmJbERcFsCbPiGbQsRGBDBBBOBhOLGbPcXEJbtUDBbABBBACABJBDBABAGAEABA" ++
    "BABCBBBACABABABABABBBACDBGBDBDBABJBQFCBEBQfaAJbnQclfBbGgdTGiNCinPOlbKPxXdqWuVcfYhhYFgfFb" ++
    "onhGjF"),
  (["xids", "xidstart"],
    "cNZGZbVAKAEAFWBbEBrPELOEHABAeZEBBDCBAGABCBABTBdEBfIIgJBbLCAGbOcTbAEDbTbQbJBBdUBAPBHBKCCA" ++
    "QABbDbDdKLAYbGJBEAFVEAJADAXYHKFXBFRbPcGcBDASAHJPPEHCBCVBGBADDDAQANBBCOBKAIFEBCVBGBBBBBBb" ++
    "FDBATCQIBCBVBGBBBEDASAPBXALHCBCVBGBBBEDAbEBBCPARABFDCBDDBBABBDBDCDLWAcAHBCBWBPDAbACCACBb" ++
    "EAEHBCBWBJBEDAbFBBBPBRIBCBbOCAQAFCICYFFRDXBIBACGcGbVBANGcGBBABEBXBABJBAKACEBAVDbGAcLHBbJ" ++
    "bBEeLbQUAQFEDDADBHCEMMARbLBAFACbQBmUBDCGBABDCbOBDCbGBDCGBABDCOBcEBDCcObLPQdHCFDxVCQBZFcW" ++
    "DKHRNSOROMBCPbZbJAEAcPdKHbOBAFcRKbEbXbDCELbREZcCWJcAdEAdPbURHcCbDNBKbRbAbJbPCKbJCKFbQCCb" ++
    "PDBFBBDAFhJcMkRCFCbLCFCHBABABABbECcABGBADCBGDDCFEMFCBGeMANAQMdXAEACJBACFGABABABPCDFEEARb" ++
    "OdzBiUGDDBMbLBAFACcDHAQWJGBGBGBGBGBGBGBGvECZIHECEEdHGCBdLBDFbQBdPRbFbWPtSjtNcMbguEcPbTCk" ++
    "IDPKBUbUQbECdBbNICdYCcOCBBABHVPBCBDBWbDbZObXcKFDABBLbBKWZbCHbUbCAQEBJKEBbOXCBHUWDADbXBAD" ++
    "BCECABAYCCKHCMFCFCFJGBGBbQBNGeKbDqnRMWEbWmnCoBCeBbMGMEFABJBMBEBABBBBBeDbHfIGiJScLCcBbOJe" ++
    "PABADABABABABeVbKZGZLcDCbEDFCFCFCCbJLBZBSBBBOCNbIeScRcAkHbCDbWbVbFNbDFbLKbDCbJEHBEbQgBSb" ++
    "JEbJEbNIbZMKBOBGBBBKBOBGBBDbZMlYJVKHYFBbPBIcRFCABbRBBDACWKWJbEcNSBBKVKZcScDGBcMAPDBCBbCb" ++
    "QbCDbCbJHBbBbBcBKVKSNReGcUcDbYNbYNbJbMbBJWjQbPGBQCcHbCKAIVbQRbUUbBWMcAcFBCANbSbGYbAbJbDA" ++
    "CAIbIDAMbVODVABAbJRBYTBcLGBABDBOBJHbUbMHCBCVBGBBBEDASAMEbEJBACABbLBAZABAbScASDUCbEbVUBBA" ++
    "hCbUbPDbKbVUAcHbQNAcTbAbLGhDbReMcLbFHCACHBBBXPABAdQHCbMQABAbCAKbNHAVALbTTAScUhRbGbFIBbKR" ++
    "AbXbDeIGBBBbLVAZFBBBbFOAmPSPABMBbHeUAdBbjLdYeGRhNdxKdSPbpFRFZfxQFwKkdDbDcpUvWHbERdARbDSb" ++
    "VQDbFUFSqQbSiDcLeYcWFAcOMcMBBAbCjbZIbvPbPJnfRDBGBBBlEPAbDCCAODIpFdkUeCFMDIHJiwKdGBcSBBCA" ++
    "CBCDBLBABGBcMBDCHBGBbBBDBEBADGBnBCYBYBbEBYBbEBYBbEBYBbEBYBHcsYbEGFkBcJfQbSKGQAmJbDSbRsQb" ++
    "BiUbDCAtBGBDBBBOBhOcHcPHAbuIDBbABBBACABJBDBABAGAEABABABCBBBACABABABABABBBACDBGBDBDBABJBQ" ++
    "FCBEBQgoAclfBbGgdTGiNCinPOlbKPxXdqWuVcfYhhYFgfF")]

end LazyPeg.Unicode
