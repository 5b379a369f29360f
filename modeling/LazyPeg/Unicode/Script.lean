import LazyPeg.Unicode.RangeSet

/-!
# Scripts

The script that each character is written in (Unicode 16.0).
-/
namespace LazyPeg.Unicode

/-- The scripts. -/
def scripts : PropertyTable := [
  (["adlm", "adlam"],
    "hdeUcXEJEB"),
  (["aghb", "caucasianalbanian"],
    "duxSbZLA"),
  (["ahom"],
    "ebrCbACOEW"),
  (["arab", "arabic"],
    "chCEBFBNBCBbFBJLZBeDBbHdCbVjGbEBBFcWBbCdntWeKQnYCdBCcBHAbGPeIEBfEfvNbEcPCcDDdglSDBbABBBA" ++
    "CABJBDBABAGAEABABABCBBBACABABABABABBBACDBGBDBDBABJBQFCBEBQcAB"),
  (["armi", "imperialaramaic"],
    "dwbWVBI"),
  (["armn", "armenian"],
    "bzDbLCbXCCdozJE"),
  (["avst", "avestan"],
    "dxcYcBDG"),
  (["bali", "balinese"],
    "kfWcYBbX"),
  (["bamu", "bamum"],
    "clcQdJcvcQvW"),
  (["bass", "bassavah"],
    "fhkIbDCF"),
  (["batk", "batak"],
    "knGbZID"),
  (["beng", "bengali"],
    "dpODBHCBCVBGBADDCICBCDIAEBBECY"),
  (["bhks", "bhaiksuki"],
    "edoIIBbSBNKbC"),
  (["bopo", "bopomofo"],
    "bcSBrlXbQeIbF"),
  (["brah", "brahmi"],
    "dzaEcZEbJJA"),
  (["brai", "braille"],
    "pdWjV"),
  (["bugi", "buginese"],
    "jwAbBCB"),
  (["buhd", "buhid"],
    "iuYT"),
  (["cakm", "chakma"],
    "dzkAcABR"),
  (["cans", "canadianaboriginal"],
    "hoYyPvOcRdtpQP"),
  (["cari", "carian"],
    "dtyMbW"),
  (["cham"],
    "cmjWcCJNCJCD"),
  (["cher", "cherokee"],
    "hlGdHCFcfjEdB"),
  (["chrs", "chorasmian"],
    "dyxCbB"),
  (["copt", "qaac", "coptic"],
    "bmGNpjKeLFG"),
  (["cpmn", "cyprominoan"],
    "ekyYdU"),
  (["cprt", "cypriot"],
    "dvzKFCABbRBBDACA"),
  (["cyrl", "cyrillic"],
    "bnKfCCgMivOKgEAcYAgfNbFbtoAdRbheCBdhpGcJbHA"),
  (["deva", "devanagari"],
    "dkQdCEOCZcijGbFbreMJ"),
  (["diak", "divesakuru"],
    "eckUGCACHBBBbDBBCLJJ"),
  (["dogr", "dogra"],
    "ecaYcH"),
  (["dsrt", "deseret"],
    "dumAdB"),
  (["dupl", "duployan"],
    "gmdSeCFMDIHJCD"),
  (["egyp", "egyptianhieroglyphs"],
    "eldGbqRKfxQ"),
  (["elba", "elbasan"],
    "duvWbN"),
  (["elym", "elymaic"],
    "dyyYW"),
  (["ethi", "ethiopic"],
    "gvGcUBDCGBABDCbOBDCbGBDCGBABDCOBcEBDCcOCbFDZjvAWJGBGBGBGBGBGBGBGbvkCFCFCFJGBGepyFGBDBBBO"),
  (["gara", "garay"],
    "dxzCbLDbCIB"),
  (["geor", "georgian"],
    "ghSbLBAFACbQBDejWbQCCgeAbLBAFA"),
  (["glag", "glagolitic"],
    "qrGdRgizGGBQCGBBBE"),
  (["gong", "gunjalagondi"],
    "eebWFBBBbKBBBFHJ"),
  (["gonm", "masaramgondi"],
    "edyEGBBBbRDABBBIIJ"),
  (["goth", "gothic"],
    "dueAbA"),
  (["gran", "grantha"],
    "eadSDBHCBCVBGBBBECICBCCCAGAFGCGDE"),
  (["grek", "greek"],
    "bhWDBCCDBAEABABCBABTBcKOPjnQEbYEEEdGAmIVCFCbLCFCHBABABABbECcABOBNCFBSCCBIlJAcajEAbgnIdAR" ++
    "AdaxRcR"),
  (["gujr", "gujarati"],
    "dzLCBIBCBVBGBBBECJBCBCCAPDCLHG"),
  (["gukh", "gurungkhema"],
    "fdrScF"),
  (["guru", "gurmukhi"],
    "duNCBFEBCVBGBBBBBBCABEEBCCDAHDBAHQ"),
  (["hang", "hangul"],
    "glKjVllEBjXdPeJbEcNbEbtaNbCyTqnRMWEbWpaIbEDFCFCFCC"),
  (["hani", "han"],
    "rpWZBdKMiFbVABAZIODblCjtNcMbfbJbhsIoBCeBbsiIBMBccoKclfBbGgdTGiNCinPOlbKPxXdqWuVcfYhhYFgf" ++
    "F"),
  (["hano", "hanunoo"],
    "itSU"),
  (["hatr", "hatran"],
    "dwiASBBFE"),
  (["hebr", "hebrew"],
    "ccVcCIbAEFdovWZBEBABBBBBJ"),
  (["hira", "hiragana"],
    "shDdHGCfpeVlASAbDCymVA"),
  (["hluw", "anatolianhieroglyphs"],
    "essEwK"),
  (["hmng", "pahawhhmong"],
    "fhmEcRKJBGBUFS"),
  (["hmnp", "nyiakengpuachuehmong"],
    "haeAbSDNCJEB"),
  (["hung", "oldhungarian"],
    "dxrSbYNbYHF"),
  (["ital", "olditalic"],
    "ducEbJJC"),
  (["java", "javanese"],
    "cmeYcZCJEB"),
  (["kali", "kayahli"],
    "cmaAbTBA"),
  (["kana", "katakana"],
    "skVdLCCjGPiAbUBdJczhEJBbScouCDBGBBBAlBCbYAOD"),
  (["kawi"],
    "eerWQBbODbC"),
  (["khar", "kharoshthi"],
    "dwtCDBBFHBCBbCCCEJHI"),
  (["khmr", "khmer"],
    "ixKdPCJGJsSbF"),
  (["khoj", "khojki"],
    "dztWRBbU"),
  (["kits", "khitansmallscript"],
    "fjiIAkgXsBbPA"),
  (["knda", "kannada"],
    "etCMBCBWBJBECIBCBDHBGBBDCJBC"),
  (["krai", "kiratrai"],
    "fiiIcF"),
  (["kthi", "kaithi"],
    "dzfCcOKA"),
  (["lana", "taitham"],
    "jxGcKBbCCKGJGN"),
  (["laoo", "lao"],
    "fmVBBABEBXBABWCEBABGBJCD"),
  (["latn", "latin"],
    "cNZGZbVAPAFWBbEBrGbNEjxBbLGbWFDFMBcRcNjVoFANAQMfLBGAbBARbOecTbFbulMdXDcOCBBABHVNbfKbQBIB" ++
    "DbedQGboKZGZdcFFBbPBIddnPbEGF"),
  (["lepc", "lepcha"],
    "kpScDDODC"),
  (["limb", "limbu"],
    "jmEbEBLELEADL"),
  (["lina", "lineara"],
    "dvfSlYJVKH"),
  (["linb", "linearb"],
    "dsyQLBZBSBBBOCNbIeS"),
  (["lisu"],
    "ckkUbVbumAA"),
  (["lyci", "lycian"],
    "dtxGbC"),
  (["lydi", "lydian"],
    "dwkMZFA"),
  (["mahj", "mahajani"],
    "dznCbM"),
  (["maka", "makasar"],
    "eeqQY"),
  (["mand", "mandaic"],
    "ddGbBCA"),
  (["mani", "manichaean"],
    "dxaMbMEL"),
  (["marc", "marchen"],
    "edsQbFCVBN"),
  (["medf", "medefaidrin"],
    "fisEdM"),
  (["mend", "mendekikakui"],
    "hcuYhOCP"),
  (["merc", "meroiticcursive"],
    "dwpKXETCbT"),
  (["mero", "meroitichieroglyphs"],
    "dwoEbF"),
  (["miao", "plrd"],
    "fizOcWEcEHQ"),
  (["mlym", "malayalam"],
    "eyAMBCBbYBCBFEPCZ"),
  (["modi"],
    "ebhGcQLJ"),
  (["mong", "mongolian"],
    "jcIBCABTGdKHbQdscBM"),
  (["mroo", "mro"],
    "fheUbEBJEB"),
  (["mtei", "meeteimayek"],
    "cmsMWhTbTCJ"),
  (["mult", "multani"],
    "dzyUGBABDBOBK"),
  (["mymr", "myanmar"],
    "gbOgDcgaYbEdTbFbpaMT"),
  (["nagm", "nagmundari"],
    "hbpObP"),
  (["nand", "nandinagari"],
    "ecqYHCbTCK"),
  (["narb", "oldnortharabian"],
    "dwyAbF"),
  (["nbat", "nabataean"],
    "dweIbEII"),
  (["newa"],
    "eanOdNBE"),
  (["nkoo", "nko"],
    "cyIcGCC"),
  (["nshu", "nushu"],
    "fjiFAyvMpF"),
  (["ogam", "ogham"],
    "inObC"),
  (["olck", "olchiki"],
    "ksUbV"),
  (["onao", "olonal"],
    "hbzKbQEA"),
  (["orkh", "oldturkic"],
    "dxmUcU"),
  (["orya", "oriya"],
    "eeJCBHCBCVBGBBBECICBCCHCEBBECR"),
  (["osge", "osage"],
    "dusUbJEbJ"),
  (["osma", "osmanya"],
    "duqYbDCJ"),
  (["ougr", "olduyghur"],
    "dyuQZ"),
  (["palm", "palmyrene"],
    "dwdCbF"),
  (["pauc", "paucinhau"],
    "edcAcE"),
  (["perm", "oldpermic"],
    "dufGbQ"),
  (["phag", "phagspa"],
    "clsQcD"),
  (["phli", "inscriptionalpahlavi"],
    "dxgQSFH"),
  (["phlp", "psalterpahlavi"],
    "dxhWRHDMG"),
  (["phnx", "phoenician"],
    "dwjGbBDA"),
  (["prti", "inscriptionalparthian"],
    "dxfKVCH"),
  (["rjng", "rejang"],
    "cmbWbJLA"),
  (["rohg", "hanifirohingya"],
    "dxwQbNIJ"),
  (["runr", "runic"],
    "ioUcWDK"),
  (["samr", "samaritan"],
    "daUbTCO"),
  (["sarb", "oldsoutharabian"],
    "dwwUbF"),
  (["saur", "saurashtra"],
    "clvCcRIL"),
  (["sgnw", "signwriting"],
    "gwtKzBPEBO"),
  (["shaw", "shavian"],
    "dupCbV"),
  (["shrd", "sharada"],
    "dzoYdR"),
  (["sidd", "siddham"],
    "ebcIcBCbL"),
  (["sind", "khudawadi"],
    "eaaQcGFJ"),
  (["sinh", "sinhala"],
    "fcZCBRDXBIBACGDAEFBABHGJCCdulGT"),
  (["sogd", "sogdian"],
    "dysEbP"),
  (["sogo", "oldsogdian"],
    "dyqIbN"),
  (["sora", "sorasompeng"],
    "dziEYHJ"),
  (["soyo", "soyombo"],
    "ecxSdE"),
  (["sund", "sundanese"],
    "kkUcLjWH"),
  (["sunu", "sunuwar"],
    "edlWbHOJ"),
  (["sylo", "sylotinagri"],
    "clqEbS"),
  (["syrc", "syriac"],
    "cqYNBcHCCkMK"),
  (["tagb", "tagbanwa"],
    "iwEMBCBB"),
  (["takr", "takri"],
    "ebmEcFGJ"),
  (["tale", "taile"],
    "jpGbDCE"),
  (["talu", "newtailue"],
    "jrCbREZGKDB"),
  (["taml", "tamil"],
    "ejIBBFDCBDDBBABBDBDCDLEEDCBDCAGAOUealHbXNA"),
  (["tang", "tangut"],
    "fjiEAbFjbZIbdNtSI"),
  (["tavt", "taiviet"],
    "cmoUcOYE"),
  (["telu", "telugu"],
    "eoEMBCBWBPCIBCBDHBBCCACDCJHI"),
  (["tfng", "tifinagh"],
    "rcYcDHBOA"),
  (["tglg", "tagalog"],
    "isMVJA"),
  (["thaa", "thaana"],
    "cvWbX"),
  (["thai"],
    "fhXcFFbB"),
  (["tibt", "tibetan"],
    "frScTBbJEbMBbJBOBGEB"),
  (["tirh", "tirhuta"],
    "easMcTIJ"),
  (["tnsa", "tangsa"],
    "fhgQdABJ"),
  (["todr", "todhri"],
    "dvdGbZ"),
  (["toto"],
    "hatKbE"),
  (["tutg", "tulutigalari"],
    "eaiQJBACABbLBJBACABDBJBBIB"),
  (["ugar", "ugaritic"],
    "duhCbDBA"),
  (["vaii", "vai"],
    "ckmQlN"),
  (["vith", "vithkuqi"],
    "dvaEKBOBGBBBKBOBGBB"),
  (["wara", "warangciti"],
    "echCdEMA"),
  (["wcho", "wancho"],
    "havGcFFA"),
  (["xpeo", "oldpersian"],
    "duiIbJEN"),
  (["xsux", "cuneiform"],
    "efbSbjLdYeGBELhN"),
  (["yezi", "yezidi"],
    "dylKbPBCCB"),
  (["yiii", "yi"],
    "cipKbsUDcC"),
  (["zanb", "zanabazarsquare"],
    "ecuQcT"),
  (["zinh", "qaai", "inherited"],
    "bdOeHkRBrKKbAAbcIDgoXbEtTCBMBGEAGADBhQcLuEBhMbGftXDeDBczuJPQNblNAiSAgfAActcUbTCWuYCRHCGb" ++
    "EDbtlhIjF"),
  (["zyyy", "common"],
    "AcMbAFbAbUBOBEXAbFArHbMFECTeMAJAGABAyNAGAOADAbGAgAAtWAeZBbvTApPDlEAcgLCcTBhVBBAbvHANAHDB" ++
    "FBCCAbdTLCdIBKDKBORbGcLbLBCCFBbABQbPCEzPWKVbjRjWyDCbFBeAtSdPpMUBABYPHEDdNBDAdMBfRPbGbLJA" ++
    "bWcLbFdCbVAdKgLjtOcLbhsIbHdYCgJJjKAgEApFAOBbezQBiAJWbIBSBDfRABbFbAFbAKKAbTBcMGBGKEjYCEbS" ++
    "DIdCMbZbSiUbAcshWDfvGjPGqTgAeLcIjLKbMCcJDQIBHbDEcIiFTMTMdIJYfFdGBcSBBCACBCDBLBABGBcMBDCH" ++
    "BGBbBBDBEBADGBnBClFCbXhtHcPcYcIbbEbREdVMOCOBOBbKKgRcEZBBNbREIHBOFfYblVEQDMDeOEdQGLEAPLEc" ++
    "DIJGbNIbDCLEBcKnBMNCMDJFcDHOCKGIHfQBdXbsuxBAbEdR")]

end LazyPeg.Unicode
