import LazyPeg.Unicode.RangeSet

/-!
# Script extensions

For each script the characters that are used in it, those shared between several scripts
included (Unicode 16.0).
-/
namespace LazyPeg.Unicode

/-- The script extensions. -/
def scriptExtensions : PropertyTable := [
  (["adlm", "adlam"],
    "ciHAbGAjwOAfhHAglrIcXEJEB"),
  (["aghb", "caucasianalbanian"],
    "bdSAbSAbSAdtqNbZLA"),
  (["ahom"],
    "ebrCbACOEW"),
  (["arab", "arabic"],
    "chCEBiGBbHdCbVjGbEBBFcWBbCivNAfhHAczrAeKQrCCcBHAbGPeIEBfEbmHbBeiEbEcPCcDDdglSDBbABBBACAB" ++
    "JBDBABAGAEABABABCBBBACABABABABABBBACDBGBDBDBABJBQFCBEBQcAB"),
  (["armi", "imperialaramaic"],
    "dwbWVBI"),
  (["armn", "armenian"],
    "bdWAvGbLCbXCCdozJE"),
  (["avst", "avestan"],
    "hBArfSBdfqCcBDG"),
  (["bali", "balinese"],
    "kfWcYBbX"),
  (["bamu", "bamum"],
    "clcQdJcvcQvW"),
  (["bass", "bassavah"],
    "fhkIbDCF"),
  (["batk", "batak"],
    "knGbZID"),
  (["beng", "bengali"],
    "baYAcmUBRBbADBHCBCVBGBADDCICBCDIAEBBECYhdHABACBBAIAIACAEACCcbaFA"),
  (["bhks", "bhaiksuki"],
    "edoIIBbSBNKbC"),
  (["bopo", "bopomofo"],
    "bbJABCNAQBrbXCEJBMKDCAGAhNAJbQeIbFczlTBkWE"),
  (["brah", "brahmi"],
    "dzaEcZEbJJA"),
  (["brai", "braille"],
    "pdWjV"),
  (["bugi", "buginese"],
    "jwAbBCBcckTA"),
  (["buhd", "buhid"],
    "iuNBJT"),
  (["cakm", "chakma"],
    "dtMJckEJdtfQcABR"),
  (["cans", "canadianaboriginal"],
    "hoYyPvOcRdtpQP"),
  (["cari", "carian"],
    "hBAlzMACAfgDAdclQbW"),
  (["cham"],
    "cmjWcCJNCJCD"),
  (["cher", "cherokee"],
    "bdOCBAGBWBLBgfUdHCFcfjEdB"),
  (["chrs", "chorasmian"],
    "dyxCbB"),
  (["copt", "qaac", "coptic"],
    "hBAwMADBBAeEBeENpjKeLFGkTAdcpCbB"),
  (["cpmn", "cyprominoan"],
    "dtiMBrqKdU"),
  (["cprt", "cypriot"],
    "dtiMCEbSDIcoMFCABbRBBDACA"),
  (["cyrl", "cyrillic"],
    "baYAcPCBABABACAFAjElRivOKgEAcYAeXAgaPbFcPAbtlKdRbheCBdhpGcJbHA"),
  (["deva", "devanagari"],
    "baYAcjRdECbQhiEbMBBbnAAbzfRJgKbFbreMJ"),
  (["diak", "divesakuru"],
    "eckUGCACHBBBbDBBCLJJ"),
  (["dogr", "dogra"],
    "doMLcidCJbqiOcH"),
  (["dsrt", "deseret"],
    "dumAdB"),
  (["dupl", "duployan"],
    "hBAwTBBAYBqiHAfuqLeCFMDIHJCH"),
  (["egyp", "egyptianhieroglyphs"],
    "eldGbqRKfxQ"),
  (["elba", "elbasan"],
    "hBAwRAdtsCbN"),
  (["elym", "elymaic"],
    "dyyYW"),
  (["ethi", "ethiopic"],
    "beCAfrDcUBDCGBABDCbOBDCbGBDCGBABDCOBcEBDCcOCbFDZjvAWJGBGBGBGBGBGBGBGbvkCFCFCFJGBGepyFGBD" ++
    "BBBO"),
  (["gara", "garay"],
    "chOAOADAdvqUbLDbCIB"),
  (["geor", "georgian"],
    "hBAbvLAefEbLBAFACbVejWbQCCbjMAeuNbLBAFAjZA"),
  (["glag", "glagolitic"],
    "hBAwPABAoSACAjXAeiRAfvIAekRdRsPAbtnFAeotKGBQCGBBBE"),
  (["gong", "gunjalagondi"],
    "hBAdhKBeanIFBBBbKBBBFHJ"),
  (["gonm", "masaramgondi"],
    "doMBeajQGBBBbRDABBBIIJ"),
  (["goth", "gothic"],
    "hBAwQBCAbOAdsyObA"),
  (["gran", "grantha"],
    "dnTBRByQNgkAABBbECDBbnAAdnrJDBHCBCVBGBBBEBJCBCCCAGAFGCGDEerRBBA"),
  (["grek", "greek"],
    "hBAwMBCABABAKAbUACAbQHCDBAEABABCBABTBcKOPjnQEbYEEEdGCmGVCFCbLCFCHBABABABbECcABOBNCFBSCCB" ++
    "IdQAhSAcajEAbgnIdARAdaxRcR"),
  (["gujr", "gujarati"],
    "dnTBRBkXCBIBCBVBGBBBECJBCBCCAPDCLHGchnSJ"),
  (["gukh", "gurungkhema"],
    "doNAfadEcF"),
  (["guru", "gurmukhi"],
    "dnTBRBfZCBFEBCVBGBBBBBBCABEEBCCDAHDBAHQchsZJ"),
  (["hang", "hangul"],
    "glKjVljLCEJBMOCGAhNAcBdPeJbEcNbEbtaNbCyTqnRMWEbWomZBkWEcGbEDFCFCFCC"),
  (["hani", "han"],
    "hBAriUZBdKMiFbAPBCBMBMBMCAGIhFAfSPbGbLJAbWbNcEbWPLbZAdKYKEdSbEBjtNcMbfbJcqYHbfbCoBCeBbhR" ++
    "BkWEbqpOBMBblrARlrYBfeSclfBbGgdTGiNCinPOlbKPxXdqWuVcfYhhYFgfF"),
  (["hano", "hanunoo"],
    "itSW"),
  (["hatr", "hatran"],
    "dwiASBBFE"),
  (["hebr", "hebrew"],
    "bdVByYcCIbAEFdovWZBEBABBBBBJ"),
  (["hira", "hiragana"],
    "seRCEJBMQFBAEBDdHCHdMBcztGBkWEKAbTBcouRlASAbDCymVA"),
  (["hluw", "anatolianhieroglyphs"],
    "essEwK"),
  (["hmng", "pahawhhmong"],
    "fhmEcRKJBGBUFS"),
  (["hmnp", "nyiakengpuachuehmong"],
    "haeAbSDNCJEB"),
  (["hung", "oldhungarian"],
    "mgOACAfgDAPAdgeGbYNbYHF"),
  (["ital", "olditalic"],
    "ducEbJJC"),
  (["java", "javanese"],
    "cmeYcZBKEB"),
  (["kali", "kayahli"],
    "cmaAbV"),
  (["kana", "katakana"],
    "bdTAbDAqzTCEJBMQFBAEBdNDDdRjGPiAbUBdJcywBBkWcKcouADBGBBBAlBCbYAOD"),
  (["kawi"],
    "eerWQBbODbC"),
  (["khar", "kharoshthi"],
    "dwtCDBBFHBCBbCCCEJHI"),
  (["khmr", "khmer"],
    "ixKdPCJGJsSbF"),
  (["khoj", "khojki"],
    "edIJchoIJbobMRBbU"),
  (["kits", "khitansmallscript"],
    "fjiIAkgXsBbPA"),
  (["knda", "kannada"],
    "dnTBRBbeOMBCBWBJBECIBCBDHBGBBDCJBCgaEABBGAXABAcasXF"),
  (["krai", "kiratrai"],
    "fiiIcF"),
  (["kthi", "kaithi"],
    "doOJnxXAbufEJbnmScOKA"),
  (["lana", "taitham"],
    "jxGcKBbCCKGJGN"),
  (["laoo", "lao"],
    "fmVBBABEBXBABWCEBABGBJCD"),
  (["latn", "latin"],
    "cNZGZbVAMACAFWBbEBrGDAKABCBAJABAGEbBOBBBAMACCHBBBbMAFAEMkRBbvEBcxKAeoIbLGbWFDFMBcRcFAHjV" ++
    "lRAcNANAQMdFAcFBGAbBARbOecTbFpRAbtuMHbAdXDcOCBBABHVNlQAtTbQBIBDbedQGboKZGZdcFFBbPBIddnPb" ++
    "EGF"),
  (["lepc", "lepcha"],
    "kpScDDODC"),
  (["limb", "limbu"],
    "doNAfxQbEBLELEADL"),
  (["lina", "lineara"],
    "dtiTbSbvGlYJVKH"),
  (["linb", "linearb"],
    "dsyQLBZBSBBBOCNbIeSFCEbSDI"),
  (["lisu"],
    "baYAQArdKBbsfSbVbumAA"),
  (["lyci", "lycian"],
    "mgOAdhqRbC"),
  (["lydi", "lydian"],
    "hBArfTAdexQZFA"),
  (["mahj", "mahajani"],
    "hBAdhKLcidCJbnuSbM"),
  (["maka", "makasar"],
    "eeqQY"),
  (["mand", "mandaic"],
    "cjOAtRbBCA"),
  (["mani", "manichaean"],
    "cjOAduqXbMEL"),
  (["marc", "marchen"],
    "edsQbFCVBN"),
  (["medf", "medefaidrin"],
    "fisEdM"),
  (["mend", "mendekikakui"],
    "hcuYhOCP"),
  (["merc", "meroiticcursive"],
    "dwpKXETCbT"),
  (["mero", "meroitichieroglyphs"],
    "mgRAdkhMbF"),
  (["miao", "plrd"],
    "fizOcWEcEHQ"),
  (["mlym", "malayalam"],
    "dnTBRBbjMMBCBbYBCBFEPCZfvEAXAcasZC"),
  (["modi"],
    "clsAJbpoWcQLJ"),
  (["mong", "mongolian"],
    "jcIZGdKHbQcwAAfzTBFDdjfWM"),
  (["mroo", "mro"],
    "fheUbEBJEB"),
  (["mtei", "meeteimayek"],
    "cmsMWhTbTCJ"),
  (["mult", "multani"],
    "dyKJdwaAGBABDBOBK"),
  (["mymr", "myanmar"],
    "gbOgDcfuCAgVbEdTbFbpaMT"),
  (["nagm", "nagmundari"],
    "hbpObP"),
  (["nand", "nandinagari"],
    "doMBbiMJgbHAIAHAcasRFbqySHCbTCK"),
  (["narb", "oldnortharabian"],
    "dwyAbF"),
  (["nbat", "nabataean"],
    "dweIbEII"),
  (["newa"],
    "eanOdNBE"),
  (["nkoo", "nko"],
    "chOAOADAqAcGCCdowSB"),
  (["nshu", "nushu"],
    "fjiFAyvMpF"),
  (["ogam", "ogham"],
    "inObC"),
  (["olck", "olchiki"],
    "ksUbV"),
  (["onao", "olonal"],
    "doMBgykWbQEA"),
  (["orkh", "oldturkic"],
    "mgOAfgFAdfzZcU"),
  (["orya", "oriya"],
    "dnTBRBpVCBHCBCVBGBBBECICBCCHCEBBECRgpEAXA"),
  (["osge", "osage"],
    "bdPACAGAcYAdtlVbJEbJ"),
  (["osma", "osmanya"],
    "duqYbDCJ"),
  (["ougr", "olduyghur"],
    "cjOAdusVAbsFZ"),
  (["palm", "palmyrene"],
    "dwdCbF"),
  (["pauc", "paucinhau"],
    "edcAcE"),
  (["perm", "oldpermic"],
    "hBAwMAFCKAoDAdsmUbQ"),
  (["phag", "phagspa"],
    "jcKBBAdcJAfzUAbtnXcD"),
  (["phli", "inscriptionalpahlavi"],
    "dxgQSFH"),
  (["phlp", "psalterpahlavi"],
    "cjOAduyHRHDMG"),
  (["phnx", "phoenician"],
    "dwjGbBDA"),
  (["prti", "inscriptionalparthian"],
    "dxfKVCH"),
  (["rjng", "rejang"],
    "cmbWbJLA"),
  (["rohg", "hanifirohingya"],
    "chOAOADAbGAfRAdvhJbNIJ"),
  (["runr", "runic"],
    "ioUdK"),
  (["samr", "samaritan"],
    "daUbTCOojQA"),
  (["sarb", "oldsoutharabian"],
    "dwwUbF"),
  (["saur", "saurashtra"],
    "clvCcRIL"),
  (["sgnw", "signwriting"],
    "gwtKzBPEBO"),
  (["shaw", "shavian"],
    "hBAduiAbV"),
  (["shrd", "sharada"],
    "dnTAhkFABACBCAcatRFCAbnwPdR"),
  (["sidd", "siddham"],
    "ebcIcBCbL"),
  (["sind", "khudawadi"],
    "doMBcidMJboiGcGFJ"),
  (["sinh", "sinhala"],
    "doMBboLCBRDXBIBACGDAEFBABHGJCCfrPAdotQT"),
  (["sogd", "sogdian"],
    "cjOAdwiPbP"),
  (["sogo", "oldsogdian"],
    "dyqIbN"),
  (["sora", "sorasompeng"],
    "dziEYHJ"),
  (["soyo", "soyombo"],
    "ecxSdE"),
  (["sund", "sundanese"],
    "kkUcLjWH"),
  (["sunu", "sunuwar"],
    "bdOBBAJACAbCADAecgKbHOJ"),
  (["sylo", "sylotinagri"],
    "doMBeYJchwIbS"),
  (["syrc", "syriac"],
    "bdRBCBBAVACCHBBAbcDAOBCAbGAKKbAAfNNBcHCCkMKieFABA"),
  (["tagb", "tagbanwa"],
    "iuNBbPMBCBB"),
  (["takr", "takri"],
    "doMBcidMJbptUcFGJ"),
  (["tale", "taile"],
    "bdOBFBDAezZJdkWbDCE"),
  (["talu", "newtailue"],
    "jrCbREZGKDB"),
  (["taml", "tamil"],
    "dnTBRBuUBBFDCBDDBBABBDBDCDLEEDCBDCAGAOUgkDAcbbKAboeFABAcDBetFbXNA"),
  (["tang", "tangut"],
    "seAPtBAeqkMAbFjbZIbdNtSI"),
  (["tavt", "taiviet"],
    "cmoUcOYE"),
  (["telu", "telugu"],
    "dnTBRBzQMBCBWBPCIBCBDHBBCCACDCJHIgfAAXA"),
  (["tfng", "tifinagh"],
    "bdQABACABApzAcDHBOA"),
  (["tglg", "tagalog"],
    "isMVJAVB"),
  (["thaa", "thaana"],
    "chOAOBCAcMJkSbXdpgQAKA"),
  (["thai"],
    "baYAbAAbRAbTAecLcFFbB"),
  (["tibt", "tibetan"],
    "frScTBbJEbMBbJBOBGEBmeVD"),
  (["tirh", "tirhuta"],
    "dnTBRBhkMAcasZJbpaCcTIJ"),
  (["tnsa", "tangsa"],
    "fhgQdABJ"),
  (["todr", "todhri"],
    "bdPACACAJABAcWAdtwBbZ"),
  (["toto"],
    "baYAgzsLbE"),
  (["tutg", "tulutigalari"],
    "exAJgbQABAcasXFhFAbojEJBACABbLBJBACABDBJBBIB"),
  (["ugar", "ugaritic"],
    "duhCbDBA"),
  (["vaii", "vai"],
    "ckmQlN"),
  (["vith", "vithkuqi"],
    "dvaEKBOBGBBBKBOBGBB"),
  (["wara", "warangciti"],
    "echCdEMA"),
  (["wcho", "wancho"],
    "havGcFFA"),
  (["xpeo", "oldpersian"],
    "duiIbJEN"),
  (["xsux", "cuneiform"],
    "efbSbjLdYeGBELhN"),
  (["yezi", "yezidi"],
    "chOAOADAcMJdwaGbPBCCB"),
  (["yiii", "yi"],
    "seRBFJCHiPAbqbCbsUDcCbiiCE"),
  (["zanb", "zanabazarsquare"],
    "ecuQcT"),
  (["zinh", "qaai", "inherited"],
    "beDACABLBBDGCACPBBBRBEBDcgMBgoXbEbdBcBBABEuEBhMbFdfsQPQNblNAczqObTCWuYCRHCGbEDbtlhIjF"),
  (["zyyy", "common"],
    "AcMbAFbAbUBLBBBEXAbFArHCBJBADABIBABFFECTeWAGABAyNAiHAtWAcaUApPDgdBLCbGBbEBJBBBGBKDKBORbG" ++
    "cLbLBCCFBbABQbPCEzPWKVbjRjWyDCbFBeAtSWBXCJBDBABZqCADANANAVAuJXbFAbXOMDgFJFdRbFAjtOcLbhsQ" ++
    "ZdYCblOAOBbfhSJWUCLBSBDfRABbFbAFbAFeXGBGKEpMMbZbScynBjPGqTgAeLcIjLKbMCcJDQIBHbDEcIiFTMTM" ++
    "dIbBGfFdGBcSBBCACBCDBLBABGBcMBDCHBGBbBBDBEBADGBnBClFCbXhtHcPcYcIbbEbREdVMOCOBOBbKKgRcEZB" ++
    "BNbREIXFfYblVEQDMDeOEdQGLEAPLEcDIJGbNIbDCLEBcKnBMNCMDJFcDHOCKGIHfQBdXbsuxBAbEdR")]

end LazyPeg.Unicode
